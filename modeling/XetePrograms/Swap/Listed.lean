import XetePrograms.Swap.Zeroed

/-!
# The authority of a listing

Approvals given to the address of a listing outlive the listing. The address
signs for an asset only in a fill that consumes the open record and pays for it.
-/

set_option autoImplicit false

namespace Xete.Swap
open Xete.Octets Xete.Weakest Xete.Chain Xete.Token Xete.Runtime Xete.Rules

variable {E : Env} {H : Host} {m m₁ m' : Machine} {d : Bytes} {tag : UInt8} {k : Pubkey}
  {s : Ledger} {p : Place} {c : Call}

/-! ## Signatures of the program -/

theorem Call.outcome (hs : SystemRules H) (hf : Confined H) (ho : c.On H)
    (hr : c.result s = some m) :
    ∃ tag d, c.data = tag :: d ∧ Outcome c.env d ⟨s,[]⟩ m tag := by
  obtain ⟨tag,d,hd,hh⟩ := Call.handled hr
  obtain ⟨rfl,hw⟩ := ho
  exact ⟨tag,d,hd,wp_ok (handler_outcome hs hw hf) hh⟩

structure SignedBy (E : Env) (as : List Act) (k : Pubkey) (cpi : Cpi) (seeds : List Bytes) :
    Prop where
  mem : .invoke cpi (some seeds) ∈ as
  address : E.host.createProgramAddress seeds E.programId = some k
  used : ¬Act.Opens k (.invoke cpi (some seeds))

theorem SignedBy.signs {as : List Act} {cpi : Cpi} {seeds : List Bytes}
    (h : SignedBy E as k cpi seeds) : SignsIn E as k := ⟨cpi,seeds,h.mem,h.address⟩

/-- The instruction whose acts are signed at a place is one that may sign there. -/
theorem Outcome.maySign (hc : E.host.CollisionFree) (h : Outcome E d m m' tag) (hm : m.trace = [])
    (hk : p.At E.host k) (hs : SignsIn E (m'.trace.map Event.act) k) : MaySign tag p := by
  obtain ⟨as,hd,hfp⟩ := h.within
  rw [did_trace _ _ _ hd, hm] at hs
  obtain ⟨q,hq,hqk⟩ := hfp.signs k hs
  rwa [hqk.inj hc hk] at hq

/-- The one signed act after a payment. -/
theorem signed_last {as : List Act} {move cpi : Cpi} {signer seeds : List Bytes} {rec dest : Pubkey}
    (hi : Idle E as)
    (h : SignedBy E (as ++ [.invoke move (some signer),.close rec dest]) k cpi seeds) :
    cpi = move ∧ seeds = signer := by
  rcases List.mem_append.mp h.mem with hmem | hmem
  · exact (hi.1 k ⟨cpi,seeds,hmem,h.address⟩).elim
  · simpa using hmem

/-! ## The record that a fill consumes -/

/-- The record that a fill finds at a place of its maker is live. -/
theorem PaidRecord.holds {r : RecordKeys} {pay : Payment} (hsys : E.programId ≠ systemId)
    (h : PaidRecord E d m m₁ r pay) (hp : p.party = some r.maker)
    (hslot : Slot E.host p (m.ledger r.record)) : p.Holds (m.ledger r.record).data := by
  cases hslot with
  | vacant ho _ => exact (hsys (h.owner.symm.trans ho)).elim
  | closed _ hd hz =>
    have hmk := h.maker
    rw [hd, keyAt_zeros] at hmk
    exact (hz (hmk ▸ hp)).elim
  | live _ hh _ _ => exact hh

inductive MovesUpTo (asset auth : Pubkey) (n : ℕ) : Cpi → Prop
  | token (program source dest : Pubkey) (amount : ℕ) (dec : UInt8) (h : amount ≤ n) :
      MovesUpTo asset auth n (.transferChecked program source asset dest auth amount dec)
  | nft (args : MplTransfer) (hm : args.mint = asset) (ha : args.authority = auth)
      (h : args.amount ≤ n) : MovesUpTo asset auth n (.mplTransfer args)
  | core (collection payer newOwner : Pubkey) (h : 1 ≤ n) :
      MovesUpTo asset auth n (.coreTransfer mplCoreId asset collection payer auth newOwner true)

/-- What the fill that consumed a listing did: it paid the price of the open
record, moved its goods by `cpi`, and wiped it. -/
structure ConsumedListing (E : Env) (d : Bytes) (m m₁ m' : Machine) (r : RecordKeys) (pay : Payment)
    (cpi : Cpi) (seeds : List Bytes) : Prop extends PaidRecord E d m m₁ r pay where
  isOpen : RestedHolds r.maker (slice d 0 32) (m.ledger r.record).data
  moves : MovesUpTo r.giveMint r.record (u64At (m.ledger r.record).data sGiveAmt) cpi
  acts : m'.trace.map Event.act = paidActs m r pay ++
    [.invoke cpi (some seeds),.close r.record r.maker]
  wiped : Wiped E.host (m'.ledger r.record)

theorem FilledListing.acts {r : RecordKeys} {pay : Payment} {move : Cpi}
    (h : FilledListing E d m m₁ m' r pay move) (hm : m.trace = []) :
    m'.trace.map Event.act = paidActs m r pay ++
      [.invoke move (some (listingSigner (m.ledger r.record).data r.maker (slice d 0 32))),
        .close r.record r.maker] := by
  rw [did_trace _ _ _ h.did, did_trace _ _ _ h.paid.did, hm]
  rfl

theorem FilledListing.wiped {r : RecordKeys} {pay : Payment} {move : Cpi} (hw : Wellformed E)
    (hf : Confined E.host) (h : FilledListing E d m m₁ m' r pay move) :
    Wiped E.host (m'.ledger r.record) := by
  have hst : Stores E r.record (m.ledger r.record).data m₁ :=
    Stores.did hw hf ⟨h.owner,rfl⟩ h.paid.did (h.idle.2 _)
  have hd : Did E ([.invoke move
    (some (listingSigner (m.ledger r.record).data r.maker (slice d 0 32)))] ++
    .close r.record r.maker :: []) m₁ m' := h.did
  have hend := close_wipes hw hf hd (touchedIn_invoke _ _ _) (touchedIn_nil _) hst.1
  exact ⟨hend.1,by rw [hend.2, zeros_length]⟩

/-- A fill of a listing whose address signed at the place of a record consumed it. -/
theorem FilledListing.consumed {r : RecordKeys} {pay : Payment} {move cpi : Cpi} {maker : Pubkey}
    {nonce : Bytes} {seeds : List Bytes} (hw : Wellformed E) (hf : Confined E.host)
    (hc : E.host.CollisionFree) (h : FilledListing E d m m₁ m' r pay move) (hm : m.trace = [])
    (hsig : SignedBy E (m'.trace.map Event.act) k cpi seeds)
    (hk : (Place.listing maker nonce).At E.host k)
    (hslot : Slot E.host (.listing maker nonce) (m.ledger k))
    (hmoves : RestedHolds r.maker (slice d 0 32) (m.ledger r.record).data →
      MovesUpTo r.giveMint r.record (u64At (m.ledger r.record).data sGiveAmt) move) :
    r.record = k ∧ r.maker = maker ∧ ConsumedListing E d m m₁ m' r pay cpi seeds := by
  have hacts := h.acts hm
  rw [hacts] at hsig
  obtain ⟨rfl,rfl⟩ := signed_last h.idle hsig
  have hrec : r.record = k := address_unique h.address hsig.address
  subst hrec
  have hat : (Place.listing r.maker (slice d 0 32)).At E.host r.record := ⟨h.nonce,_,h.address⟩
  have hplace := hat.inj hc hk
  rw [Place.listing.injEq] at hplace
  obtain ⟨rfl,rfl⟩ := hplace
  have hopen : RestedHolds r.maker (slice d 0 32) (m.ledger r.record).data :=
    h.toPaidRecord.holds hw.notSystem rfl hslot
  exact ⟨rfl,rfl,{ h.toPaidRecord with
    isOpen := hopen
    moves := hmoves hopen
    acts := hacts
    wiped := h.wiped hw hf }⟩

theorem OpenedListing.unused {maker listing giveMint wantMint : Pubkey} {kind bump : UInt8}
    {mid : List Act} {record : Bytes} {cpi : Cpi} {seeds : List Bytes}
    (h : OpenedListing E d m m' maker listing giveMint wantMint kind bump mid record)
    (hm : m.trace = []) : ¬SignedBy E (m'.trace.map Event.act) k cpi seeds := by
  intro hsig
  rw [did_trace _ _ _ h.did, hm] at hsig
  have hmem := hsig.mem
  have haddr := hsig.address
  simp [openListingActs, createAct] at hmem
  rcases hmem with ⟨rfl,rfl⟩ | hmem
  · have hk := address_unique haddr (E.host.find_create _ _ _ _ h.slot.address)
    exact hsig.used hk.symm
  · obtain ⟨c,hc⟩ := h.unsigned _ hmem
    cases hc

theorem ClosedListing.unused {maker listing : Pubkey} {nonce : Bytes} {pre : List Act} {cpi : Cpi}
    {seeds : List Bytes} (h : ClosedListing E nonce m m' maker listing pre) (hm : m.trace = []) :
    ¬SignedBy E (m'.trace.map Event.act) k cpi seeds := by
  intro hsig
  rw [did_trace _ _ _ h.did, hm] at hsig
  have hmem := hsig.mem
  simp at hmem
  obtain ⟨c,hc⟩ := h.unsigned _ hmem
  cases hc

def fillListingTags : List UInt8 := [27,31,35]

theorem Outcome.consumes {maker : Pubkey} {nonce : Bytes} {cpi : Cpi} {seeds : List Bytes}
    (hw : Wellformed E) (hf : Confined E.host) (hc : E.host.CollisionFree)
    (h : Outcome E d m m' tag) (hm : m.trace = [])
    (hsig : SignedBy E (m'.trace.map Event.act) k cpi seeds)
    (hk : (Place.listing maker nonce).At E.host k)
    (hslot : Slot E.host (.listing maker nonce) (m.ledger k)) :
    tag ∈ fillListingTags ∧ ∃ m₁ r pay, r.record = k ∧ r.maker = maker ∧
      ConsumedListing E d m m₁ m' r pay cpi seeds := by
  have htag : tag ∈ listingTags := h.maySign hc hm hk hsig.signs
  cases h with
  | listedToken _ _ _ _ _ _ h => exact (h.toOpenedListing.unused hm hsig).elim
  | listedPnft _ _ _ _ _ _ h => exact (h.toOpenedListing.unused hm hsig).elim
  | listedCore _ _ _ _ _ _ h => exact (h.toOpenedListing.unused hm hsig).elim
  | cancelledListing _ _ _ _ _ h => exact (h.toClosedListing.unused hm hsig).elim
  | expiredListing _ _ _ _ h => exact (h.toClosedListing.unused hm hsig).elim
  | filledToken m₁ r pay _ _ _ _ h =>
    exact ⟨by decide,m₁,r,pay,h.toFilledListing.consumed hw hf hc hm hsig hk hslot
      fun _ => .token _ _ _ _ _ (Nat.le_refl _)⟩
  | filledNft m₁ r pay args _ _ h =>
    refine ⟨by decide,m₁,r,pay,h.toFilledListing.consumed hw hf hc hm hsig hk hslot fun ho => ?_⟩
    exact .nft args h.move.mint h.move.authority
      (by rw [h.move.amount]; exact Nat.pos_of_ne_zero ho.amount)
  | filledListingCore m₁ r _ _ h =>
    refine ⟨by decide,m₁,r,_,h.consumed hw hf hc hm hsig hk hslot fun ho => ?_⟩
    exact .core _ _ _ (Nat.pos_of_ne_zero ho.amount)
  | sold _ ht _ =>
    simp only [List.mem_cons, List.not_mem_nil, or_false] at ht
    rcases ht with rfl | rfl | rfl <;> exact absurd htag (by decide)
  | bought _ ht _ =>
    simp only [List.mem_cons, List.not_mem_nil, or_false] at ht
    rcases ht with rfl | rfl | rfl <;> exact absurd htag (by decide)
  | _ => exact absurd htag (by decide)

section
open Xete.Market Xete.Reference

end

end Xete.Swap
