import XetePrograms.Swap.Creators

/-!
# One layout, many writers and readers

Seven handlers write a record and some twenty read one, as do the client's
decoders. Each reads the terms that the caller of the writer passed.
-/

set_option autoImplicit false

namespace Xete.Swap
open Xete.Octets Xete.Weakest Xete.Chain Xete.Token Xete.Runtime Xete.Rules

variable {E : Env} {H : Host} {m m₁ m' : Machine} {d : Bytes} {tag : UInt8} {k : Pubkey}
  {s : Ledger} {maker record giveMint wantMint : Pubkey} {bump : UInt8} {kind mode pct : UInt8}

/-! ## The layouts -/

def LaidOut (len : ℕ) (fields : List (ℕ × ℕ)) : Prop :=
  fields.Pairwise (fun f g => f.1+f.2 ≤ g.1) ∧ ∀ f ∈ fields, f.1+f.2 ≤ len

instance (len : ℕ) (fields : List (ℕ × ℕ)) : Decidable (LaidOut len fields) := by
  unfold LaidOut; infer_instance

def swapLayout : List (ℕ × ℕ) :=
  [(sMaker,32),(sGiveMint,32),(sGiveAmt,8),(sWantMint,32),(sWantAmt,8),(sTaker,32),(sTerms,32),
    (sExpiry,8),(sStatus,1),(sBump,1),(sNonce,32),(sRoyaltyMode,1),(sMakerPct,1)]

def offerLayout : List (ℕ × ℕ) :=
  [(oOfferer,32),(oSwap,32),(oWantMint,32),(oWantAmt,8),(oGiveMint,32),(oGiveAmt,8),(oExpiry,8),
    (oStatus,1),(oBump,1),(oNonce,32)]

def eventLayout : List (ℕ × ℕ) :=
  [(0,8),(8,4),(12,1),(13,1),(14,32),(46,32),(78,32),(110,32),(142,8),(150,8),(158,8),(166,32)]

/-! ## The client -/

def SwapView.client (v : SwapView) : Sdk.Swap :=
  ⟨v.maker,v.giveMint,v.giveAmount,v.wantMint,v.wantAmount,v.taker,v.terms,v.expiry,v.status,v.bump,
    v.nonce⟩

def OfferView.client (v : OfferView) : Sdk.Offer :=
  ⟨v.offerer,v.swap,v.wantMint,v.wantAmount,v.giveMint,v.giveAmount,v.expiry,v.status,v.bump,
    v.nonce⟩

theorem swapFrom_view {b : Bytes} (h : b.length = swapLen) :
    Sdk.swapFrom b = some (swapView b).client := Sdk.swapFrom_full b h

theorem offerFrom_view {b : Bytes} (h : b.length = offerLen) :
    Sdk.offerFrom b = some (offerView b).client := Sdk.offerFrom_full b h

/-! ## The writers -/

def postKind (tag : UInt8) : UInt8 :=
  if tag = 0 then kindSwap else if tag = 18 then kindSwapPnft else if tag = 22 then kindSwapCore
  else if tag = 26 then kindListing else if tag = 30 then kindListingPnft else kindListingCore

def mintSlots (tag : UInt8) : ℕ × ℕ :=
  if tag = 0 then (3,4) else if tag = 22 then (2,4) else (2,3)

def stanceOf (tag : UInt8) (d : Bytes) : UInt8 × UInt8 :=
  if tag = 26 ∨ tag = 30 then (byteAt d 120,byteAt d 121) else (royaltyNone,0)

def postPlace (tag : UInt8) (maker : Pubkey) (nonce : Bytes) : Place :=
  if tag < 26 then .swap maker nonce else .listing maker nonce

structure Passed (E : Env) (tag : UInt8) (d : Bytes) (record : Pubkey) (v : SwapView) : Prop where
  maker : SlotIs E 0 v.maker
  slot : SlotIs E 1 record
  signed : E.signed v.maker
  giveMint : SlotIs E (mintSlots tag).1 v.giveMint
  wantMint : SlotIs E (mintSlots tag).2 v.wantMint
  terms : v = postedTerms v.maker v.giveMint (u64At d 32) v.wantMint d v.bump (stanceOf tag d).1
    (stanceOf tag d).2
  place : (postPlace tag v.maker (slice d 0 32)).At E.host record
  address : E.host.findProgramAddress (postPlace tag v.maker (slice d 0 32)).seeds E.programId =
    some (record,v.bump)

/-- A writer left the terms in the record, where the client decodes them, and in
the event. -/
structure Written (E : Env) (tag : UInt8) (d : Bytes) (m' : Machine) (record : Pubkey)
    (v : SwapView) :
    Prop extends Passed E tag d record v where
  owner : (m'.ledger record).owner = E.programId
  length : (m'.ledger record).data.length = swapLen
  view : swapView (m'.ledger record).data = v
  client : Sdk.swapFrom (m'.ledger record).data = some v.client
  event : ∃ e, .log e ∈ m'.trace.map Event.act ∧
    Sdk.postCreatedFrom e = some ⟨discPostCreated,magic,schemaVersion,postKind tag,v.maker,record,
      v.giveMint,v.wantMint,v.giveAmount,v.wantAmount,v.expiry,v.nonce⟩

theorem openedEvent_decodes {give : ℕ} (hd : 32 ≤ d.length) (hg : give ≤ u64Max) :
    Sdk.postCreatedFrom (openedEvent kind maker record giveMint give wantMint d) =
      some ⟨discPostCreated,magic,schemaVersion,kind,maker,record,giveMint,wantMint,give,u64At d 40,
        i64At d 80,slice d 0 32⟩ := by
  obtain ⟨hlo,hhi⟩ := i64At_bounds d 80
  exact encodePostCreated_decodes kind maker record giveMint wantMint hg (u64At_le _ _) hlo hhi
    (slice_length _ _ _ (by omega))

theorem Passed.written {v : SwapView} {b : Bytes} {as : List Act} (h : Passed E tag d record v)
    (hl : 120 ≤ d.length) (hm : m.trace = []) (hd : Did E as m m') (hst : Stores E record b m')
    (hb : b.length = swapLen) (hv : swapView b = v)
    (he : .log (openedEvent (postKind tag) v.maker record v.giveMint (u64At d 32) v.wantMint d) ∈
      as) :
    Written E tag d m' record v := by
  have hlen : (m'.ledger record).data.length = swapLen := by rw [hst.2, hb]
  have hview : swapView (m'.ledger record).data = v := by rw [hst.2, hv]
  have hgive : v.giveAmount = u64At d 32 := congrArg SwapView.giveAmount h.terms
  have hwant : v.wantAmount = u64At d 40 := congrArg SwapView.wantAmount h.terms
  have hexpiry : v.expiry = i64At d 80 := congrArg SwapView.expiry h.terms
  have hnonce : v.nonce = slice d 0 32 := congrArg SwapView.nonce h.terms
  exact { h with
    owner := hst.1
    length := hlen
    view := hview
    client := by rw [swapFrom_view hlen, hview]
    event := by
      refine ⟨openedEvent (postKind tag) v.maker record v.giveMint (u64At d 32) v.wantMint d,?_,?_⟩
      · rw [did_trace _ _ _ hd, hm]
        exact he
      · rw [openedEvent_decodes (by omega) (u64At_le _ _), hgive, hwant, hexpiry, hnonce] }

theorem FreshSlot.passed {v : SwapView} (h : FreshSlot E d m v.maker record v.bump)
    (hmints : SlotIs E (mintSlots tag).1 v.giveMint ∧ SlotIs E (mintSlots tag).2 v.wantMint)
    (hterms : v = postedTerms v.maker v.giveMint (u64At d 32) v.wantMint d v.bump (stanceOf tag d).1
      (stanceOf tag d).2)
    (htag : tag < 26) : Passed E tag d record v := by
  have hp : postPlace tag v.maker (slice d 0 32) = .swap v.maker (slice d 0 32) := if_pos htag
  exact
    { maker := h.first
      slot := h.slot
      signed := h.signed
      giveMint := hmints.1
      wantMint := hmints.2
      terms := hterms
      place := hp ▸ h.at
      address := hp ▸ h.address }

theorem ListedSlot.passed {v : SwapView} (h : ListedSlot E d m v.maker record v.bump)
    (hmints : SlotIs E (mintSlots tag).1 v.giveMint ∧ SlotIs E (mintSlots tag).2 v.wantMint)
    (hterms : v = postedTerms v.maker v.giveMint (u64At d 32) v.wantMint d v.bump (stanceOf tag d).1
      (stanceOf tag d).2)
    (htag : ¬tag < 26) : Passed E tag d record v := by
  have hp : postPlace tag v.maker (slice d 0 32) = .listing v.maker (slice d 0 32) := if_neg htag
  exact
    { maker := h.first
      slot := h.slot
      signed := h.signed
      giveMint := hmints.1
      wantMint := hmints.2
      terms := hterms
      place := hp ▸ h.at
      address := hp ▸ h.address }

theorem OpenedSwap.written {r : SwapKeys} {vbump dec : UInt8}
    (h : OpenedSwap E d m m' r bump vbump dec) (hm : m.trace = []) :
    ∃ v, Written E 0 d m' r.swap v := by
  have hl : 120 ≤ d.length := h.slot.length.ge
  have hst : Stores E r.swap (swapRecord r.maker r.giveMint (u64At d 32) r.wantMint d bump) m' := by
    obtain ⟨m₁,-,s₁,hs₁,rfl⟩ := (did_append [_,_,_,_,_] [_] _ _).mp h.did
    exact effect_write_stores hs₁
  have hp : Passed E 0 d r.swap (postedTerms r.maker r.giveMint (u64At d 32) r.wantMint d bump
      royaltyNone 0) := FreshSlot.passed h.slot h.mints rfl (by decide)
  exact ⟨_,hp.written hl hm h.did hst (swapRecord_length hl) (swapRecord_view hl (u64At_le _ _))
    (by simp [openSwapActs, postKind, postedTerms])⟩

theorem OpenedPnft.written {r : NftKeys} {args : MplTransfer} (h : OpenedPnft E d m m' r args bump)
    (hm : m.trace = []) : ∃ v, Written E 18 d m' r.swap v := by
  have hl : 120 ≤ d.length := h.slot.length.ge
  have hst : Stores E r.swap (swapRecord r.maker r.mint 1 r.wantMint d bump) m' := by
    obtain ⟨m₁,-,s₁,hs₁,rfl⟩ := (did_append [_,_,_] [_] _ _).mp h.did
    exact effect_write_stores hs₁
  have hp : Passed E 18 d r.swap (postedTerms r.maker r.mint (u64At d 32) r.wantMint d bump
      royaltyNone 0) := FreshSlot.passed h.slot h.mints rfl (by decide)
  rw [← h.one] at hst
  exact ⟨_,hp.written hl hm h.did hst (swapRecord_length hl) (swapRecord_view hl (u64At_le _ _))
    (by simp [openPnftActs, postKind, postedTerms])⟩

theorem OpenedCore.written {r : NftKeys} {collection : Pubkey}
    (h : OpenedCore E d m m' r collection bump) (hm : m.trace = []) :
    ∃ v, Written E 22 d m' r.swap v := by
  have hl : 120 ≤ d.length := h.slot.length.ge
  have hst : Stores E r.swap (swapRecord r.maker r.mint 1 r.wantMint d bump) m' := by
    obtain ⟨m₁,-,s₁,hs₁,rfl⟩ := (did_append [_,_,_] [_] _ _).mp h.did
    exact effect_write_stores hs₁
  have hp : Passed E 22 d r.swap (postedTerms r.maker r.mint (u64At d 32) r.wantMint d bump
      royaltyNone 0) := FreshSlot.passed h.slot h.mints rfl (by decide)
  rw [← h.one] at hst
  exact ⟨_,hp.written hl hm h.did hst (swapRecord_length hl) (swapRecord_view hl (u64At_le _ _))
    (by simp [postKind, postedTerms])⟩

/-- A listing with a royalty stance. -/
theorem OpenedListing.stores {maker listing giveMint wantMint : Pubkey} {kind bump : UInt8}
    {mid : List Act} {record : Bytes}
    (h : OpenedListing E d m m' maker listing giveMint wantMint kind bump mid record) :
    Stores E listing record m' := by
  obtain ⟨m₁,-,s₁,hs₁,rfl⟩ := (did_append _ _ _ _).mp h.did
  exact effect_write_stores hs₁

theorem OpenedListing.written {mid : List Act}
    (h : OpenedListing E d m m' maker record giveMint wantMint (postKind tag) bump mid
      (listingRecord maker giveMint wantMint d bump))
    (hm : m.trace = []) (ht : tag = 26 ∨ tag = 30) :
    ∃ v, Written E tag d m' record v := by
  have hl : 120 ≤ d.length := h.slot.length
  have hslots : mintSlots tag = (2,3) := by rcases ht with rfl | rfl <;> decide
  have hp : Passed E tag d record (postedTerms maker giveMint (u64At d 32) wantMint d bump
    (byteAt d 120)
      (byteAt d 121)) := by
    refine ListedSlot.passed h.slot (by rw [hslots]; exact h.mints) ?_
      (by rcases ht with rfl | rfl <;> decide)
    rw [stanceOf, if_pos ht]
    rfl
  exact ⟨_,hp.written hl hm h.did h.stores (listingRecord_length hl) (listingRecord_view hl)
    (by simp [openListingActs, postedTerms])⟩

theorem ListedCore.written {mid : List Act}
    (h : ListedCore E d m m' maker record giveMint wantMint bump mid) (hm : m.trace = []) :
    ∃ v, Written E 34 d m' record v := by
  have hl : 120 ≤ d.length := h.slot.length
  have hst := h.stores
  have hp : Passed E 34 d record (postedTerms maker giveMint (u64At d 32) wantMint d bump
      royaltyNone 0) := ListedSlot.passed h.slot h.mints rfl (by decide)
  rw [← h.one] at hst
  exact ⟨_,hp.written hl hm h.did hst (swapRecord_length hl) (swapRecord_view hl (u64At_le _ _))
    (by simp [openListingActs, postKind, postedTerms])⟩

/-- Each of the six writers leaves the terms of its caller. -/
theorem Outcome.written (h : Outcome E d m m' tag) (hm : m.trace = []) (ht : tag ∈ postTags) :
    ∃ record v, Written E tag d m' record v := by
  cases h with
  | openedSwap _ _ _ _ h => exact ⟨_,h.written hm⟩
  | openedPnft _ _ _ h => exact ⟨_,h.written hm⟩
  | openedCore _ _ _ h => exact ⟨_,h.written hm⟩
  | listedToken _ _ _ _ _ _ h => exact ⟨_,h.toOpenedListing.written hm (.inl rfl)⟩
  | listedPnft _ _ _ _ _ _ h => exact ⟨_,h.toOpenedListing.written hm (.inr rfl)⟩
  | listedCore _ _ _ _ _ _ h => exact ⟨_,h.written hm⟩
  | cancelledListing _ ht' _ _ _ _ =>
    simp only [List.mem_cons, List.not_mem_nil, or_false] at ht'
    rcases ht' with rfl | rfl | rfl <;> exact absurd ht (by decide)
  | expiredListing _ ht' _ _ _ =>
    simp only [List.mem_cons, List.not_mem_nil, or_false] at ht'
    rcases ht' with rfl | rfl | rfl <;> exact absurd ht (by decide)
  | sold _ ht' _ =>
    simp only [List.mem_cons, List.not_mem_nil, or_false] at ht'
    rcases ht' with rfl | rfl | rfl <;> exact absurd ht (by decide)
  | bought _ ht' _ =>
    simp only [List.mem_cons, List.not_mem_nil, or_false] at ht'
    rcases ht' with rfl | rfl | rfl <;> exact absurd ht (by decide)
  | _ => exact absurd ht (by decide)

structure PassedOffer (E : Env) (d : Bytes) (s : Ledger) (record : Pubkey) (v : OfferView) :
    Prop where
  offerer : SlotIs E 0 v.offerer
  slot : SlotIs E 1 record
  signed : E.signed v.offerer
  wantMint : SlotIs E 3 v.wantMint
  swap : SlotIs E 4 v.swap
  wantAmount : v.wantAmount = u64At d 32
  giveMint : v.giveMint = (swapView (s v.swap).data).giveMint
  giveAmount : v.giveAmount = (swapView (s v.swap).data).giveAmount
  expiry : v.expiry = i64At d 40
  isOpen : v.status = statusOpen
  nonce : v.nonce = slice d 0 32
  place : (Place.offer v.offerer v.nonce).At E.host record
  address : E.host.findProgramAddress (offerSeeds v.offerer v.nonce) E.programId =
    some (record,v.bump)

structure WrittenOffer (E : Env) (d : Bytes) (m m' : Machine) (record : Pubkey) (v : OfferView) :
    Prop extends PassedOffer E d m.ledger record v where
  owner : (m'.ledger record).owner = E.programId
  length : (m'.ledger record).data.length = offerLen
  view : offerView (m'.ledger record).data = v
  client : Sdk.offerFrom (m'.ledger record).data = some v.client

theorem MadeOffer.slot {r : OfferKeys} {vbump dec : UInt8} (h : MadeOffer E d m m' r bump vbump dec)
    {i : ℕ} {j : Pubkey} (hi : i < 7)
    (hj : [r.offerer,r.offer,r.ovault,r.wantMint,r.swap,r.offererWant, r.tokenProg][i]? = some j) :
    SlotIs E i j := by
  rw [← h.slots, List.getElem?_take_of_lt hi, List.getElem?_map] at hj
  exact hj

theorem MadeOffer.written {r : OfferKeys} {vbump dec : UInt8}
    (h : MadeOffer E d m m' r bump vbump dec) :
    WrittenOffer E d m m' r.offer (offeredTerms r (m.ledger r.swap).data d bump) := by
  have hst : Stores E r.offer (offerRecord r (m.ledger r.swap).data d bump) m' := by
    obtain ⟨m₁,-,s₁,hs₁,rfl⟩ := (did_append [_,_,_,_] [_] _ _).mp h.did
    exact effect_write_stores hs₁
  have hlen : (m'.ledger r.offer).data.length = offerLen := by
    rw [hst.2, offerRecord_length _ _ _ _ h.length]
  have hview : offerView (m'.ledger r.offer).data = offeredTerms r (m.ledger r.swap).data d
    bump := by
    rw [hst.2, offerRecord_view _ _ _ _ h.length]
  exact
    { offerer := h.slot (by decide) rfl
      slot := h.slot (by decide) rfl
      signed := h.signed
      wantMint := h.slot (by decide) rfl
      swap := h.slot (by decide) rfl
      wantAmount := rfl
      giveMint := rfl
      giveAmount := rfl
      expiry := rfl
      isOpen := rfl
      nonce := rfl
      place := .of_find (slice_length _ _ _ (by have := h.length; omega)) h.address
      address := h.address
      owner := hst.1
      length := hlen
      view := hview
      client := by rw [offerFrom_view hlen, hview] }

/-! ## The readers of a swap or listing -/

inductive Hands (v : SwapView) (k : Pubkey) : Cpi → Prop
  | token (program source dest : Pubkey) (dec : UInt8) :
      Hands v k (.transferChecked program source v.giveMint dest k v.giveAmount dec)
  | nft (args : MplTransfer) (mint : args.mint = v.giveMint) (authority : args.authority = k) :
      Hands v k (.mplTransfer args)
  | core (collection payer newOwner : Pubkey) :
      Hands v k (.coreTransfer mplCoreId v.giveMint collection payer k newOwner true)

/-- What every reader that consumes the record at `k` reads of it; the rent goes
to the maker, and the address is that of the maker and the nonce. -/
structure Consumes (E : Env) (tag : UInt8) (nonce : Bytes) (m' : Machine) (k : Pubkey)
    (v : SwapView) :
    Prop where
  isOpen : v.status = statusOpen
  rent : .close k v.maker ∈ m'.trace.map Event.act
  place : (postPlace tag v.maker nonce).At E.host k

def Releases (tag : UInt8) (nonce : Bytes) (m' : Machine) (k : Pubkey) (v : SwapView) : Prop :=
  ∃ move, Hands v k move ∧
    .invoke move (some (bumped (postPlace tag v.maker nonce).seeds v.bump)) ∈ m'.trace.map Event.act

inductive SwapRead (E : Env) (d : Bytes) (m m' : Machine) (k : Pubkey) (v : SwapView) : UInt8 → Prop
  | filled (tag : UInt8) (ht : tag ∈ ([1,19,23,27,31,35] : List UInt8)) (r : RecordKeys)
    (pay : Payment)
      (consumes : Consumes E tag (slice d 0 32) m' k v)
      (releases : Releases tag (slice d 0 32) m' k v)
      (maker : r.maker = v.maker) (giveMint : r.giveMint = v.giveMint)
      (wantMint : r.wantMint = v.wantMint) (giveAmount : u64At d 32 = v.giveAmount)
      (taker : v.taker = zeroKey ∨ v.taker = r.taker) (signed : E.signed r.taker)
      (expiry : E.clock < v.expiry)
      (paid : royaltyPriceActs r.toPriceKeys v.wantAmount (feeAt m.ledger r.config v.wantAmount) pay
        <+:
        m'.trace.map Event.act)
      (royalty : tag ∈ ([19,27,31] : List UInt8) → pay.mode = v.royaltyMode ∧
        pay.pct = v.makerPct) :
      SwapRead E d m m' k v tag
  | cancelled (tag : UInt8) (ht : tag ∈ ([2,20,24] : List UInt8)) (consumes :
    Consumes E tag d m' k v)
      (releases : Releases tag d m' k v) (signed : E.signed v.maker) : SwapRead E d m m' k v tag
  | expired (tag : UInt8) (ht : tag ∈ ([3,21,25] : List UInt8)) (consumes : Consumes E tag d m' k v)
      (releases : Releases tag d m' k v) (expiry : v.expiry ≤ E.clock) : SwapRead E d m m' k v tag
  | withdrawn (tag : UInt8) (ht : tag ∈ ([28,32,36] : List UInt8)) (consumes :
    Consumes E tag d m' k v)
      (giveMint : SlotIs E 2 v.giveMint) (signed : E.signed v.maker) : SwapRead E d m m' k v tag
  | lapsed (tag : UInt8) (ht : tag ∈ ([29,33,37] : List UInt8)) (consumes : Consumes E tag d m' k v)
      (giveMint : ∀ j, SlotIs E 3 j → v.giveMint = j) (expiry : v.expiry ≤ E.clock) :
      SwapRead E d m m' k v tag
  | offered (wantMint : SlotIs E 3 v.wantMint) (record : Pubkey) (o : OfferView)
      (written : WrittenOffer E d m m' record o) (swap : o.swap = k)
      (giveMint : o.giveMint = v.giveMint)
      (giveAmount : o.giveAmount = v.giveAmount) : SwapRead E d m m' k v 4
  | accepted (consumes : Consumes E 5 (slice d 0 32) m' k v) (releases :
    Releases 5 (slice d 0 32) m' k v)
      (giveMint : SlotIs E 6 v.giveMint) (wantMint : SlotIs E 7 v.wantMint)
      (signed : E.signed v.maker) (expiry : E.clock < v.expiry) : SwapRead E d m m' k v 5

theorem PaidRecord.read {r : RecordKeys} {pay : Payment} {move : Cpi} {rest : List Act}
    {seeds : List Bytes} (h : PaidRecord E d m m₁ r pay) (hm : m.trace = [])
    (hd : Did E (.invoke move (some seeds) :: rest) m₁ m') (hc : .close r.record r.maker ∈ rest)
    (ht : tag ∈ ([1,19,23,27,31,35] : List UInt8))
    (hs : seeds = bumped (postPlace tag r.maker (slice d 0 32)).seeds
      (byteAt (m.ledger r.record).data sBump))
    (hp : (postPlace tag r.maker (slice d 0 32)).At E.host r.record)
    (hg : Hands (swapView (m.ledger r.record).data) r.record move)
    (hroy : tag ∈ ([19,27,31] : List UInt8) →
      pay.mode = byteAt (m.ledger r.record).data sRoyaltyMode ∧ pay.pct = byteAt
      (m.ledger r.record).data sMakerPct) :
    SwapRead E d m m' r.record (swapView (m.ledger r.record).data) tag := by
  have hmaker : r.maker = (swapView (m.ledger r.record).data).maker := h.maker.symm
  have hacts : m'.trace.map Event.act = paidActs m r pay ++ .invoke move (some seeds) :: rest := by
    rw [did_trace _ _ _ hd, did_trace _ _ _ h.paid.did, hm]
    rfl
  obtain ⟨-,hopen,hgive,hwant,hexpiry,htaker⟩ := h.fillable
  have hcons : Consumes E tag (slice d 0 32) m' r.record (swapView (m.ledger r.record).data) := by
    refine ⟨hopen,?_,hmaker ▸ hp⟩
    rw [hacts, ← hmaker]
    exact List.mem_append_right _ (List.mem_cons_of_mem _ hc)
  have hrel : Releases tag (slice d 0 32) m' r.record (swapView (m.ledger r.record).data) := by
    refine ⟨move,hg,?_⟩
    rw [hacts, ← hmaker]
    subst hs
    exact List.mem_append_right _ List.mem_cons_self
  refine .filled tag ht r pay hcons hrel hmaker hgive.symm hwant.symm h.amount.symm htaker
    h.signed hexpiry ?_ hroy
  rw [hacts]
  exact List.prefix_append _ _

/-- The goods are released by one signed invocation, and the record is closed. -/
theorem release_read {nonce : Bytes} {pre rest : List Act} {move : Cpi} {v : SwapView}
    (ht : tag < 26) (hm : m.trace = []) (hopen : v.status = statusOpen) (hn : nonce.length = 32)
    (hd : Did E (pre ++ .invoke move (some (bumped (swapSeeds v.maker nonce) v.bump)) :: rest) m m')
    (hc : .close k v.maker ∈ rest)
    (ha : E.host.createProgramAddress (bumped (swapSeeds v.maker nonce) v.bump) E.programId =
      some k)
    (hg : Hands v k move) : Consumes E tag nonce m' k v ∧ Releases tag nonce m' k v := by
  have hp : postPlace tag v.maker nonce = .swap v.maker nonce := if_pos ht
  have hacts := did_trace _ _ _ hd
  rw [hm, List.map_nil, List.nil_append] at hacts
  have hat : (Place.swap v.maker nonce).At E.host k := ⟨hn,_,ha⟩
  refine ⟨⟨hopen,?_,hp ▸ hat⟩,move,hg,?_⟩
  · rw [hacts]
    exact List.mem_append_right _ (List.mem_cons_of_mem _ hc)
  · rw [hacts, hp]
    exact List.mem_append_right _ List.mem_cons_self

theorem RefundedSwap.read (t : UInt8) {nonce : Bytes} {r : SwapRefundKeys} {mintIdx tokenIdx : ℕ}
    {pre : List Act} {dec : UInt8} (h : RefundedSwap E nonce m m' r mintIdx tokenIdx pre dec)
    (hm : m.trace = []) (hn : nonce.length = 32) (ht : t < 26) :
    Consumes E t nonce m' r.swap (swapView (m.ledger r.swap).data) ∧
      Releases t nonce m' r.swap (swapView (m.ledger r.swap).data) := by
  have hmaker : r.maker = (swapView (m.ledger r.swap).data).maker := h.maker.symm
  have hgive : r.giveMint = (swapView (m.ledger r.swap).data).giveMint := h.giveMint.symm
  have hd := h.did
  have ha := h.address
  rw [refundSwapActs, swapSigner, hmaker, hgive] at hd
  rw [swapSigner, hmaker] at ha
  exact release_read ht hm h.isSwap.isOpen hn hd (by simp) ha (.token _ _ _ _)

theorem ReleasedPnft.read (t : UInt8) {nonce : Bytes} {r : ReleaseKeys} {vault dest : Pubkey}
    {args : MplTransfer} {pre : List Act} (h : ReleasedPnft E nonce m m' r vault dest args pre)
    (hm : m.trace = []) (hn : nonce.length = 32) (ht : t < 26) :
    Consumes E t nonce m' r.swap (swapView (m.ledger r.swap).data) ∧
      Releases t nonce m' r.swap (swapView (m.ledger r.swap).data) := by
  have hmaker : r.maker = (swapView (m.ledger r.swap).data).maker := h.maker.symm
  have hgive : r.mint = (swapView (m.ledger r.swap).data).giveMint := h.mint.symm
  have hd := h.did
  have ha := h.address
  rw [swapSigner, hmaker] at hd ha
  exact release_read ht hm h.isSwap.isOpen hn hd (by simp) ha
    (.nft args (h.move.mint.trans hgive) h.move.authority)

theorem ReleasedCore.read (t : UInt8) {nonce : Bytes} {r : ReleaseKeys} {collection payer : Pubkey}
    {pre : List Act} (h : ReleasedCore E nonce m m' r collection payer pre) (hm : m.trace = [])
    (hn : nonce.length = 32) (ht : t < 26) :
    Consumes E t nonce m' r.swap (swapView (m.ledger r.swap).data) ∧
      Releases t nonce m' r.swap (swapView (m.ledger r.swap).data) := by
  have hmaker : r.maker = (swapView (m.ledger r.swap).data).maker := h.maker.symm
  have hgive : r.mint = (swapView (m.ledger r.swap).data).giveMint := h.mint.symm
  have hd := h.did
  have ha := h.address
  rw [swapSigner, hmaker, hgive] at hd
  rw [swapSigner, hmaker] at ha
  exact release_read ht hm h.isSwap.isOpen hn hd (by simp) ha (.core _ _ _)

theorem ClosedListing.read {nonce : Bytes} {pre : List Act}
    (h : ClosedListing E nonce m m' maker record pre) (hm : m.trace = []) (ht : ¬tag < 26) :
    Consumes E tag nonce m' record (swapView (m.ledger record).data) := by
  have hp : postPlace tag maker nonce = .listing maker nonce := if_neg ht
  obtain ⟨b,hk⟩ := h.address
  have hmaker : maker = (swapView (m.ledger record).data).maker := h.recorded.symm
  refine ⟨h.isOpen.isOpen,?_,?_⟩
  · rw [did_trace _ _ _ h.did, hm, ← hmaker]
    simp
  · rw [← hmaker, hp]
    exact .of_find h.length hk

theorem AcceptedOffer.slot {r : AcceptKeys} {giveDec wantDec : UInt8}
    (h : AcceptedOffer E d m m' r giveDec wantDec) {i : ℕ} {j : Pubkey}
    (hj : [r.maker,r.swap,r.swapVault,r.offer,r.offerVault,r.offerer,r.giveMint,r.wantMint,
      r.offererGive, r.makerWant,r.tokenProg,r.config,r.feeAta][i]? = some j) :
    SlotIs E i j := by
  rw [← h.slots, List.getElem?_map] at hj
  exact hj

theorem AcceptedOffer.read {r : AcceptKeys} {giveDec wantDec : UInt8}
    (h : AcceptedOffer E d m m' r giveDec wantDec) (hm : m.trace = []) :
    SwapRead E d m m' r.swap (swapView (m.ledger r.swap).data) 5 := by
  have hmaker : r.maker = (swapView (m.ledger r.swap).data).maker := h.maker.symm
  have hgive : r.giveMint = (swapView (m.ledger r.swap).data).giveMint := h.giveMint.symm
  have hwant : r.wantMint = (swapView (m.ledger r.swap).data).wantMint := h.wantMint.symm
  have hacts := did_trace _ _ _ h.did
  rw [hm, List.map_nil, List.nil_append, acceptActs, swapSigner, hmaker, hgive] at hacts
  obtain ⟨b,hk⟩ := h.swapAddress
  have hn : (slice d 0 32).length = 32 := slice_length _ _ _ (by have := h.length; omega)
  refine .accepted ⟨h.isSwap.isOpen,?_,hmaker ▸ .of_find hn hk⟩ ⟨_,
    .token r.tokenProg r.swapVault r.offererGive giveDec,?_⟩
    (hgive ▸ h.slot rfl) (hwant ▸ h.slot rfl) (hmaker ▸ h.signed) h.swapLive
  · rw [hacts]
    simp
  · rw [hacts]
    simp [transferAct, postPlace, Place.seeds]
    exact .inr (.inl ⟨rfl,rfl⟩)

def swapReadTags : List UInt8 := [1,2,3,4,5,19,20,21,23,24,25,27,28,29,31,32,33,35,36,37]

def swapSlot (tag : UInt8) : ℕ := if tag = 4 then 4 else 1

/-- Each reader takes from the record what its fields say. -/
theorem Outcome.swapRead (h : Outcome E d m m' tag) (hm : m.trace = []) (ht : tag ∈ swapReadTags)
    (hk : SlotIs E (swapSlot tag) k) : SwapRead E d m m' k (swapView (m.ledger k).data) tag := by
  have hone : ∀ j, swapSlot tag = 1 → SlotIs E 1 j → j = k := fun j ht hj => by
    rw [ht] at hk
    exact SlotIs.inj hj hk
  cases h with
  | filledSwap _ r v _ _ h =>
    obtain rfl := hone _ rfl h.slot
    have hmaker : (swapView (m.ledger r.record).data).giveMint = r.giveMint := h.fillable.2.2.1
    exact h.toPaidRecord.read hm h.did (by simp) (by decide) rfl ⟨h.nonce,_,h.address⟩
      (hmaker ▸ .token _ _ _ _) (fun hn => absurd hn (by decide))
  | cancelledSwap r _ _ _ hl hsg h =>
    obtain rfl := hone _ rfl h.slot
    have hr := h.read 2 hm hl (by decide)
    exact .cancelled 2 (by decide) hr.1 hr.2 (by simpa [swapView, h.maker] using hsg)
  | expiredSwap r _ hl hx h =>
    obtain rfl := hone _ rfl h.slot
    have hr := h.read 3 hm hl (by decide)
    exact .expired 3 (by decide) hr.1 hr.2 hx
  | madeOffer r _ _ _ h =>
    obtain rfl : r.swap = k := SlotIs.inj (h.slot (by decide) rfl) hk
    refine .offered ?_ r.offer _ h.written rfl rfl rfl
    have hwant : (swapView (m.ledger r.swap).data).wantMint = r.wantMint := h.wantMint
    exact hwant ▸ h.slot (by decide) rfl
  | acceptedOffer r _ _ h =>
    obtain rfl := hone r.swap rfl (h.slot rfl)
    exact h.read hm
  | filledPnft _ r pay _ _ args h =>
    obtain rfl := hone _ rfl h.slot
    have hgive : r.giveMint = (swapView (m.ledger r.record).data).giveMint := h.fillable.2.2.1.symm
    exact h.toPaidRecord.read hm h.did (by simp) (by decide) rfl ⟨h.nonce,_,h.address⟩
      (.nft args (h.move.mint.trans hgive) h.move.authority) (fun _ => ⟨h.mode,h.pct⟩)
  | cancelledPnft r _ _ _ _ h =>
    obtain rfl := hone _ rfl h.slot
    have hr := h.toReleasedPnft.read 20 hm h.length (by decide)
    exact .cancelled 20 (by decide) hr.1 hr.2 (by simpa [swapView, h.maker] using h.signed)
  | expiredPnft r _ _ _ h =>
    obtain rfl := hone _ rfl h.slot
    have hr := h.toReleasedPnft.read 21 hm h.length (by decide)
    exact .expired 21 (by decide) hr.1 hr.2 h.due
  | filledCore _ r _ _ h =>
    obtain rfl := hone _ rfl h.slot
    have hgive : (swapView (m.ledger r.record).data).giveMint = r.giveMint := h.fillable.2.2.1
    exact h.toPaidRecord.read hm h.did (by simp) (by decide) rfl ⟨h.nonce,_,h.address⟩
      (hgive ▸ .core _ _ _) (fun hn => absurd hn (by decide))
  | cancelledCore r _ _ _ h =>
    obtain rfl := hone _ rfl h.slot
    have hr := h.toReleasedCore.read 24 hm h.length (by decide)
    exact .cancelled 24 (by decide) hr.1 hr.2 (by simpa [swapView, h.maker] using h.signed)
  | expiredCore r _ _ h =>
    obtain rfl := hone _ rfl h.slot
    have hr := h.toReleasedCore.read 25 hm h.length (by decide)
    exact .expired 25 (by decide) hr.1 hr.2 h.due
  | filledToken _ r pay _ _ _ _ h =>
    obtain rfl := hone _ rfl h.slot
    have hgive : (swapView (m.ledger r.record).data).giveMint = r.giveMint := h.fillable.2.2.1
    exact h.toPaidRecord.read hm h.did (by simp) (by decide) rfl ⟨h.nonce,_,h.address⟩
      (hgive ▸ .token _ _ _ _) (fun _ => ⟨h.mode,h.pct⟩)
  | filledNft _ r pay args _ _ h =>
    obtain rfl := hone _ rfl h.slot
    have hgive : r.giveMint = (swapView (m.ledger r.record).data).giveMint := h.fillable.2.2.1.symm
    exact h.toPaidRecord.read hm h.did (by simp) (by decide) rfl ⟨h.nonce,_,h.address⟩
      (.nft args (h.move.mint.trans hgive) h.move.authority) (fun _ => ⟨h.mode,h.pct⟩)
  | filledListingCore _ r _ _ h =>
    obtain rfl := hone _ rfl h.slot
    have hgive : (swapView (m.ledger r.record).data).giveMint = r.giveMint := h.fillable.2.2.1
    exact h.toPaidRecord.read hm h.did (by simp) (by decide) rfl ⟨h.nonce,_,h.address⟩
      (hgive ▸ .core _ _ _) (fun hn => absurd hn (by decide))
  | cancelledListing _ ht' _ _ _ h =>
    have hslot : swapSlot tag = 1 ∧ ¬tag < 26 := by
      simp only [List.mem_cons, List.not_mem_nil, or_false] at ht'
      rcases ht' with rfl | rfl | rfl <;> decide
    obtain rfl := hone _ hslot.1 h.slot
    exact .withdrawn tag ht' (h.toClosedListing.read hm hslot.2) h.mint
      (by simpa [swapView, h.recorded] using h.signed)
  | expiredListing _ ht' _ _ h =>
    have hslot : swapSlot tag = 1 ∧ ¬tag < 26 := by
      simp only [List.mem_cons, List.not_mem_nil, or_false] at ht'
      rcases ht' with rfl | rfl | rfl <;> decide
    obtain rfl := hone _ hslot.1 h.slot
    exact .lapsed tag ht' (h.toClosedListing.read hm hslot.2) h.mint h.due
  | sold _ ht' _ =>
    simp only [List.mem_cons, List.not_mem_nil, or_false] at ht'
    rcases ht' with rfl | rfl | rfl <;> exact absurd ht (by decide)
  | bought _ ht' _ =>
    simp only [List.mem_cons, List.not_mem_nil, or_false] at ht'
    rcases ht' with rfl | rfl | rfl <;> exact absurd ht (by decide)
  | _ => exact absurd ht (by decide)

theorem postPlace_nonce {t : UInt8} {nonce nonce' : Bytes}
    (h : postPlace tag maker nonce = postPlace t maker nonce') : nonce = nonce' := by
  unfold postPlace at h
  split at h <;> split at h <;> cases h <;> rfl

/-- The nonce that a reader is given is the recorded one. -/
theorem Consumes.nonce {t : UInt8} {nonce : Bytes} {v : SwapView} (hc : E.host.CollisionFree)
    (h : Consumes E tag nonce m' k v) (hat : (postPlace t v.maker v.nonce).At E.host k) :
    nonce.length = 32 ∧ nonce = v.nonce := by
  have hn := postPlace_nonce (h.place.inj hc hat)
  have hsized := hat.1
  rw [hn]
  refine ⟨?_,rfl⟩
  unfold postPlace at hsized
  split at hsized <;> exact hsized

theorem SwapRead.nonce {t : UInt8} {v : SwapView} (hc : E.host.CollisionFree)
    (h : SwapRead E d m m' k v tag) (hat : (postPlace t v.maker v.nonce).At E.host k)
    (ht : tag ≠ 4) :
    slice d 0 32 = v.nonce := by
  have hall : ∀ t', Consumes E t' d m' k v → slice d 0 32 = v.nonce := fun t' hcons => by
    obtain ⟨hl,hn⟩ := hcons.nonce hc hat
    rw [slice_all _ _ hl, hn]
  cases h with
  | filled _ _ _ _ hcons => exact (hcons.nonce hc hat).2
  | cancelled _ _ hcons => exact hall _ hcons
  | expired _ _ hcons => exact hall _ hcons
  | withdrawn _ _ hcons => exact hall _ hcons
  | lapsed _ _ hcons => exact hall _ hcons
  | offered => exact (ht rfl).elim
  | accepted hcons => exact (hcons.nonce hc hat).2

/-! ## The readers of an offer -/

inductive OfferRead (E : Env) (d : Bytes) (m m' : Machine) (k : Pubkey) (v : OfferView) :
    UInt8 → Prop
  | accepted (isOpen : v.status = statusOpen) (swap : SlotIs E 1 v.swap)
    (offerer : SlotIs E 5 v.offerer)
      (giveMint : SlotIs E 6 v.giveMint) (wantMint : SlotIs E 7 v.wantMint)
      (giveAmount : (swapView (m.ledger v.swap).data).giveAmount = v.giveAmount)
      (expiry : E.clock < v.expiry)
      (paid : ∃ tokenProg source feeAta dest fee dec,
        priceActs tokenProg source v.wantMint feeAta dest k v.wantAmount fee dec
          (some (bumped (offerSeeds v.offerer (slice d 32 32)) v.bump)) <+: m'.trace.map Event.act)
      (rent : .close k v.offerer ∈ m'.trace.map Event.act)
      (place : (Place.offer v.offerer (slice d 32 32)).At E.host k) : OfferRead E d m m' k v 5
  | refunded (tag : UInt8) (ht : tag ∈ ([6,7] : List UInt8)) (isOpen : v.status = statusOpen)
      (wantMint : SlotIs E (if tag = 6 then 3 else 4) v.wantMint)
      (moved : ∃ tokenProg source dest dec,
        transferAct tokenProg source v.wantMint dest k v.wantAmount dec
        (some (bumped (offerSeeds v.offerer d) v.bump)) ∈ m'.trace.map Event.act)
      (rent : .close k v.offerer ∈ m'.trace.map Event.act)
      (place : (Place.offer v.offerer d).At E.host k)
      (due : if tag = 6 then E.signed v.offerer else v.expiry ≤ E.clock) :
        OfferRead E d m m' k v tag

def offerSlot (tag : UInt8) : ℕ := if tag = 5 then 3 else 1

theorem AcceptedOffer.readOffer {r : AcceptKeys} {giveDec wantDec : UInt8}
    (h : AcceptedOffer E d m m' r giveDec wantDec) (hm : m.trace = []) :
    OfferRead E d m m' r.offer (offerView (m.ledger r.offer).data) 5 := by
  have hswap : (offerView (m.ledger r.offer).data).swap = r.swap := h.target
  have hofferer : (offerView (m.ledger r.offer).data).offerer = r.offerer := h.offerer
  have hgive : (offerView (m.ledger r.offer).data).giveMint = r.giveMint := h.offerGive
  have hwant : (offerView (m.ledger r.offer).data).wantMint = r.wantMint := h.offerWant
  have hacts := did_trace _ _ _ h.did
  rw [hm, List.map_nil, List.nil_append, acceptActs] at hacts
  obtain ⟨b,hk⟩ := h.offerAddress
  have hn : (slice d 32 32).length = 32 := slice_length _ _ _ (by have := h.length; omega)
  have hpaid : priceActs r.tokenProg r.offerVault r.wantMint r.feeAta r.makerWant r.offer
      (u64At (m.ledger r.offer).data oWantAmt)
      (feeAt m.ledger r.config (u64At (m.ledger r.offer).data oWantAmt))
      wantDec (some (offerSigner r.offerer (m.ledger r.offer).data (slice d 32 32))) <+:
      m'.trace.map Event.act := by
    rw [hacts]
    exact List.prefix_append _ _
  rw [← hwant, ← hofferer] at hpaid
  refine .accepted h.isOffer.isOpen (hswap ▸ h.slot rfl) (hofferer ▸ h.slot rfl)
    (hgive ▸ h.slot rfl)
    (hwant ▸ h.slot rfl) ?_ h.offerLive ⟨_,_,_,_,_,_,hpaid⟩ ?_ (hofferer ▸ .of_find hn hk)
  · rw [hswap]
    exact h.offerAmount.symm
  · rw [hacts, hofferer]
    simp

theorem RefundedOffer.read {r : RefundKeys} {mintIdx tokenIdx : ℕ} {dec : UInt8}
    (h : RefundedOffer E d m m' r mintIdx tokenIdx dec) (hm : m.trace = []) (hn : d.length = 32)
    (ht : tag ∈ ([6,7] : List UInt8)) (hslot : mintIdx = if tag = 6 then 3 else 4)
    (hdue : if tag = 6 then E.signed r.offerer else i64At (m.ledger r.offer).data
      oExpiry ≤ E.clock) :
    OfferRead E d m m' r.offer (offerView (m.ledger r.offer).data) tag := by
  have hofferer : r.offerer = (offerView (m.ledger r.offer).data).offerer := h.offerer.symm
  have hwant : r.wantMint = (offerView (m.ledger r.offer).data).wantMint := h.wantMint.symm
  have hmint := h.mintSlot
  have hacts := did_trace _ _ _ h.did
  rw [hm, List.map_nil, List.nil_append, refundOfferActs, offerSigner, hofferer, hwant] at hacts
  rw [hslot, hwant] at hmint
  rw [hofferer] at hdue
  obtain ⟨b,hk⟩ := h.address
  rw [hofferer] at hk
  refine .refunded tag ht h.isOffer.isOpen hmint ⟨r.tokenProg,r.ovault,r.offererWant,dec,?_⟩ ?_
    (.of_find hn hk) hdue
  · rw [hacts]
    exact List.mem_cons_self
  · rw [hacts]
    simp

/-- Each reader takes from the offer what its fields say. -/
theorem Outcome.offerRead (h : Outcome E d m m' tag) (hm : m.trace = [])
    (ht : tag ∈ ([5,6,7] : List UInt8)) (hk : SlotIs E (offerSlot tag) k) :
    OfferRead E d m m' k (offerView (m.ledger k).data) tag := by
  cases h with
  | acceptedOffer r _ _ h =>
    obtain rfl : r.offer = k := SlotIs.inj (h.slot rfl) hk
    exact h.readOffer hm
  | withdrawnOffer r _ hl hsg h =>
    obtain rfl : r.offer = k := SlotIs.inj h.offerSlot hk
    exact h.read hm hl (by decide) rfl hsg
  | expiredOffer r _ hl hx h =>
    obtain rfl : r.offer = k := SlotIs.inj h.offerSlot hk
    exact h.read hm hl (by decide) rfl hx
  | cancelledListing _ ht' _ _ _ _ =>
    simp only [List.mem_cons, List.not_mem_nil, or_false] at ht'
    rcases ht' with rfl | rfl | rfl <;> exact absurd ht (by decide)
  | expiredListing _ ht' _ _ _ =>
    simp only [List.mem_cons, List.not_mem_nil, or_false] at ht'
    rcases ht' with rfl | rfl | rfl <;> exact absurd ht (by decide)
  | sold _ ht' _ =>
    simp only [List.mem_cons, List.not_mem_nil, or_false] at ht'
    rcases ht' with rfl | rfl | rfl <;> exact absurd ht (by decide)
  | bought _ ht' _ =>
    simp only [List.mem_cons, List.not_mem_nil, or_false] at ht'
    rcases ht' with rfl | rfl | rfl <;> exact absurd ht (by decide)
  | _ => exact absurd ht (by decide)

theorem OfferRead.nonce {v : OfferView} (hc : E.host.CollisionFree) (h : OfferRead E d m m' k v tag)
    (hat : (Place.offer v.offerer v.nonce).At E.host k) :
    slice d (if tag = 5 then 32 else 0) 32 = v.nonce := by
  cases h with
  | accepted _ _ _ _ _ _ _ _ _ hplace =>
    have hp := hplace.inj hc hat
    rw [Place.offer.injEq] at hp
    exact hp.2
  | refunded _ ht _ _ _ _ hplace _ =>
    have hp := hplace.inj hc hat
    rw [Place.offer.injEq] at hp
    have hne : tag ≠ 5 := by
      rintro rfl
      exact absurd ht (by decide)
    rw [if_neg hne, slice_all _ _ hplace.1, hp.2]

/-! ## The codecs agree -/

structure SwapCodec (H : Host) (c : Call) (tag : UInt8) (d : Bytes) (m : Machine) (k : Pubkey)
    (v : SwapView) : Prop extends Written c.env tag d m k v where
  filled : ∀ E state give want taker st m₁ m₂, state.key = k → (m₁.ledger k).data =
    (m.ledger k).data →
    loadFillState E state give want taker m₁ = .ok st m₂ →
      st = ⟨v.maker,v.giveAmount,v.wantAmount,v.bump,v.royaltyMode,v.makerPct⟩ ∧ give = v.giveMint ∧
        want = v.wantMint ∧ (v.taker = zeroKey ∨ v.taker = taker) ∧ E.clock < v.expiry
  read : ∀ (c' : Call) tag' d' s' m', c'.On H → c'.data = tag' :: d' → c'.result s' = some m' →
    tag' ∈ swapReadTags → SlotIs c'.env (swapSlot tag') k → (s' k).data = (m.ledger k).data →
      SwapRead c'.env d' ⟨s',[]⟩ m' k v tag' ∧ (tag' ≠ 4 → slice d' 0 32 = v.nonce)

structure OfferCodec (H : Host) (c : Call) (d : Bytes) (s : Ledger) (m : Machine) (k : Pubkey)
    (v : OfferView) : Prop extends WrittenOffer c.env d ⟨s,[]⟩ m k v where
  read : ∀ (c' : Call) tag' d' s' m', c'.On H → c'.data = tag' :: d' → c'.result s' = some m' →
    tag' ∈ ([5,6,7] : List UInt8) → SlotIs c'.env (offerSlot tag') k →
      (s' k).data = (m.ledger k).data →
      OfferRead c'.env d' ⟨s',[]⟩ m' k v tag' ∧ slice d' (if tag' = 5 then 32 else 0) 32 = v.nonce

theorem Written.codec {c : Call} {v : SwapView} (hs : SystemRules H) (hf : Confined H)
    (hc : H.CollisionFree) (ho : c.On H) (h : Written c.env tag d m k v) :
    SwapCodec H c tag d m k v := by
  refine { h with filled := ?_, read := ?_ }
  · intro E state give want taker st m₁ m₂ hkey hdata hload
    subst hkey
    have hw : wp (loadFillState E state give want taker)
      (fun st m₂ => st = fillState (m₁.ledger state.key).data ∧
        MayFill E m₁.ledger state.key give want taker) (fun _ => True) m₁ := by
      rw [wp_loadFillState]
      exact ⟨fun hfill => ⟨rfl,hfill⟩,fun _ => trivial⟩
    obtain ⟨hst,-,-,hgive,hwant,hexpiry,htaker⟩ := wp_ok hw hload
    have hv : swapView (m₁.ledger state.key).data = v := by rw [hdata, h.view]
    subst hv
    exact ⟨hst,hgive.symm,hwant.symm,htaker,hexpiry⟩
  · intro c' tag' d' s' m' ho' hdata' hr' ht' hk' hsame
    obtain ⟨t,e,he,hout⟩ := Call.outcome hs hf ho' hr'
    rw [hdata'] at he
    cases he
    have hread := hout.swapRead rfl ht' hk'
    rw [hsame, h.view] at hread
    have hat : (postPlace tag v.maker v.nonce).At c'.env.host k := by
      have hnonce : v.nonce = slice d 0 32 := congrArg SwapView.nonce h.terms
      rw [hnonce, ho'.host, ← ho.host]
      exact h.place
    exact ⟨hread,hread.nonce (ho'.host ▸ hc) hat⟩

theorem WrittenOffer.codec {c : Call} {v : OfferView} (hs : SystemRules H) (hf : Confined H)
    (hc : H.CollisionFree) (ho : c.On H) (h : WrittenOffer c.env d ⟨s,[]⟩ m k v) :
    OfferCodec H c d s m k v := by
  refine { h with read := ?_ }
  intro c' tag' d' s' m' ho' hdata' hr' ht' hk' hsame
  obtain ⟨t,e,he,hout⟩ := Call.outcome hs hf ho' hr'
  rw [hdata'] at he
  cases he
  have hread := hout.offerRead rfl ht' hk'
  rw [hsame, h.view] at hread
  have hat : (Place.offer v.offerer v.nonce).At c'.env.host k := by
    rw [ho'.host, ← ho.host]
    exact h.place
  exact ⟨hread,hread.nonce (ho'.host ▸ hc) hat⟩

/-- No two fields of a record or of the event meet; what a writer is passed is what
the record, the event, the client and every reader say. -/
theorem record_codecs_agree (hs : SystemRules H) (hf : Confined H) (hc : H.CollisionFree) :
    LaidOut swapLen swapLayout ∧ LaidOut offerLen offerLayout ∧ LaidOut postCreatedLen eventLayout ∧
    (∀ (c : Call) tag d s m, c.On H → c.data = tag :: d → c.result s = some m → tag ∈ postTags →
      ∃ k v, SwapCodec H c tag d m k v) ∧
    ∀ (c : Call) d s m, c.On H → c.data = 4 :: d → c.result s = some m →
      ∃ k v, OfferCodec H c d s m k v := by
  refine ⟨by decide,by decide,by decide,?_,?_⟩
  · intro c tag d s m ho hdata hr ht
    obtain ⟨t,e,he,hout⟩ := Call.outcome hs hf ho hr
    rw [hdata] at he
    cases he
    obtain ⟨k,v,h⟩ := hout.written rfl ht
    exact ⟨k,v,h.codec hs hf hc ho⟩
  · intro c d s m ho hdata hr
    obtain ⟨t,e,he,hh⟩ := Call.handled hr
    rw [hdata] at he
    cases he
    have hmade := wp_ok (makeOffer_did (ho.host ▸ hs) ho.wellformed (ho.host ▸ hf)) hh
    obtain ⟨r,_,_,_,h⟩ := hmade
    exact ⟨r.offer,_,h.written.codec hs hf hc ho⟩

section
open Xete.Market Xete.Reference

/-- A swap at 50 is read back, by all who read it, as it was opened. -/
theorem record_codecs_agree_opened : ∃ (m : Machine) (k : Pubkey) (v : SwapView),
    (openSwapCall 100 50).result start = some m ∧ v.giveAmount = 100 ∧ v.wantAmount = 50 ∧
    SwapCodec market (openSwapCall 100 50) 0 (openSwapCall 100 50).data.tail m k v := by
  have h : ((openSwapCall 100 50).result start).isSome = true := by decide +kernel
  obtain ⟨m,hm⟩ := Option.isSome_iff_exists.mp h
  have hcodec := record_codecs_agree market_systemRules market_confined market_collisionFree
  obtain ⟨k,v,hv⟩ := hcodec.2.2.2.1 (openSwapCall 100 50) 0 _ start m
    (sees_on _ _ _ _ (by decide)) rfl hm (by decide)
  have hgive : u64At (openSwapCall 100 50).data.tail 32 = 100 := by decide
  have hwant : u64At (openSwapCall 100 50).data.tail 40 = 50 := by decide
  exact ⟨m,k,v,hm,(congrArg SwapView.giveAmount hv.terms).trans hgive,
    (congrArg SwapView.wantAmount hv.terms).trans hwant,hv⟩

end

end Xete.Swap
