import XetePrograms.Swap.Bearer
import XetePrograms.Swap.Metadata

/-!
# The creators are paid

A royalty that a listing or a signed order states is due whichever instruction
settles it, but one: the fill of a Core listing drops the stance of the record,
and takes any listing whose mint has become a Core asset.
-/

set_option autoImplicit false

namespace Xete.Swap
open Xete.Octets Xete.Weakest Xete.Chain Xete.Token Xete.Runtime Xete.Rules

variable {E : Env} {H : Host} {m m₁ m' : Machine} {d : Bytes} {tag : UInt8} {k : Pubkey}
  {s s' : Ledger} {a : Action}

/-! ## The royalty -/

structure RoyaltyPaid (E : Env) (s : Ledger) (giveMint wantMint : Pubkey) (want bps : ℕ)
    (creators : List (Pubkey × UInt8)) (md tokenProg source payer : Pubkey) (dec : UInt8)
    (parts : List (AccountInfo × ℕ)) (as : List Act) : Prop where
  metadata : IsMetadata E s md giveMint
  parsed : parseTmRoyalty (s md).data = some (bps,creators)
  positive : 0 < bps
  shares : (creators.map fun c => c.2.toNat).sum = 100
  program : IsTokenProgram tokenProg
  count : parts.length = creators.length
  owned : ∀ q ∈ parts.zip creators, BelongsTo s q.1.1.key wantMint q.2.1
  sum : (parts.map Prod.snd).sum = want*bps/10000
  total : paid (royaltyActs tokenProg source wantMint payer dec parts) wantMint = want*bps/10000
  did : royaltyActs tokenProg source wantMint payer dec parts <:+: as

def PaysCreators (E : Env) (s : Ledger) (giveMint wantMint : Pubkey) (want : ℕ) (as : List Act) :
    Prop :=
  ∃ bps creators md tokenProg source payer dec parts,
    RoyaltyPaid E s giveMint wantMint want bps creators md tokenProg source payer dec parts as

theorem paid_royaltyActs (tokenProg source mint authority : Pubkey) (dec : UInt8)
    (parts : List (AccountInfo × ℕ)) :
    paid (royaltyActs tokenProg source mint authority dec parts) mint =
      (parts.map Prod.snd).sum := by
  induction parts with
  | nil => rfl
  | cons q qs ih =>
    have hq : paid (if 0 < q.2 then [transferAct tokenProg source mint q.1.key authority q.2
      dec none]
        else []) mint = q.2 := by
      split
      · simp [paid, Act.amount, transferAct]
      · simp [paid]
        omega
    rw [royaltyActs, List.flatMap_cons, paid_append, hq]
    exact congrArg (q.2+·) ih

theorem zip_map_fst {α β γ : Type} {P : α × γ → Prop} (xs : List (α × β)) (ys : List γ)
    (h : ∀ q ∈ (xs.map Prod.fst).zip ys, P q) : ∀ q ∈ xs.zip ys, P (q.1.1,q.2) := by
  intro q hq
  apply h (q.1.1,q.2)
  rw [List.zip_map_left]
  exact List.mem_map.mpr ⟨q,hq,rfl⟩

/-- A payment under a royalty stance pays the creators. -/
theorem PaidWant.paysCreators {r : PriceKeys} {want maxWant fee : ℕ} {shardSeed : UInt8}
    {pay : Payment} {as : List Act} (h : PaidWant E m m' r want maxWant shardSeed pay)
    (hp : pay.mode ≠ royaltyNone) (ht : IsTokenProgram r.tokenProg) (hw : want ≤ u64Max)
    (has : royaltyPriceActs r want fee pay <:+: as) :
    PaysCreators E m.ledger r.giveMint r.wantMint want as := by
  rcases h.royalty with ⟨hn,-⟩ | ⟨-,md,bps,-,hr⟩
  · exact (hp hn).elim
  · have hfloor : (pay.parts.map Prod.snd).sum = want*bps/10000 := by
      rw [h.total, hr.royalty, bpsOf_floor hw (parseTmRoyalty_bounds hr.parsed).1]
    have hsuffix : royaltyActs r.tokenProg r.takerWant r.wantMint r.taker pay.dec pay.parts <:+:
        royaltyPriceActs r want fee pay := (List.suffix_append _ _).isInfix
    refine ⟨bps,pay.terms.creators,md.key,r.tokenProg,r.takerWant,r.taker,pay.dec,pay.parts,?_⟩
    exact
      { metadata := hr.metadata
        parsed := hr.parsed
        positive := Nat.pos_of_ne_zero hr.positive
        shares := hr.shares
        program := ht
        count := by rw [← hr.count, ← h.creators, List.length_map]
        owned := by
          have howned := hr.owned
          rw [← h.creators] at howned
          exact zip_map_fst
            (P := fun q : AccountInfo × Pubkey × UInt8 => BelongsTo m.ledger q.1.key
            r.wantMint q.2.1) _ _ howned
        sum := hfloor
        total := by rw [paid_royaltyActs, hfloor]
        did := hsuffix.trans has }

/-! ## Signed orders -/

/-- What the payment of an order reads is the same before the marker. -/
theorem PaysCreators.of_created (hs : SystemRules E.host) {payer acct maker give want : Pubkey}
    {nonce : Bytes} {b : UInt8} {n : ℕ} {as : List Act}
    (hc : (createAct E payer acct 1 E.programId (bumped (orderDoneSeeds maker nonce) b)).effect E
      m.ledger = some s)
    (h : PaysCreators E s give want n as) : PaysCreators E m.ledger give want n as := by
  obtain ⟨bps,creators,md,tokenProg,source,taker,dec,parts,h⟩ := h
  have hc' := hc
  simp only [createAct, Act.effect] at hc'
  split at hc'
  · obtain ⟨-,-,hacct,hrest⟩ := hs.create _ _ _ _ _ _ _ hc'
    have hne : md ≠ acct := by
      rintro rfl
      have hl := (parseTmRoyalty_bounds h.parsed).2.2
      rw [hacct] at hl
      simp at hl
    obtain ⟨hown,hdata,-⟩ := hrest md hne
    refine ⟨bps,creators,md,tokenProg,source,taker,dec,parts,{ h with
      metadata := ⟨hown ▸ h.metadata.1,h.metadata.2⟩
      parsed := hdata ▸ h.parsed
      owned := fun q hq => (h.owned q hq).of_created hs hc }⟩
  · cases hc'

/-- A settled sell order with a royalty pays the creators. -/
theorem Sells.paysCreators (hs : SystemRules E.host) (h : Sells E tag d m m') (hm : m.trace = [])
    {maker ixSysvar : AccountInfo} {o : SealedOrder}
    (ho : sealedOrder tag E.accounts d = some (maker,ixSysvar,o))
    (hmode : o.terms.royaltyMode ≠ royaltyNone) :
    PaysCreators E m.ledger o.give o.want o.terms.wantAmount (m'.trace.map Event.act) := by
  obtain ⟨m₀,m₁,maker',o',payer,auth,marker,authBump,doneBump,r,pay,move,h⟩ := h
  obtain ⟨ix,ho'⟩ := h.settled.order
  rw [ho] at ho'
  cases ho'
  obtain ⟨s,hc,hm₀⟩ := h.created
  have hled : m₀.ledger = s := congrArg Machine.ledger ((did_nil _ _).mp hm₀)
  have hbound : o.terms.wantAmount ≤ u64Max := Nat.le_of_lt_succ (sealedOrder_sized ho).wantAmount
  have hin : royaltyPriceActs r o.terms.wantAmount (feeAt m₀.ledger r.config o.terms.wantAmount)
    pay <:+:
      m'.trace.map Event.act := by
    rw [did_trace _ _ _ h.settled.did, hm]
    exact ⟨[createAct E payer marker 1 E.programId
      (bumped (orderDoneSeeds maker.key o.terms.nonce) doneBump)],[move],by simp⟩
  have hpays := h.paid.paysCreators (h.mode ▸ hmode) h.tokenProg hbound hin
  rw [h.give, h.want, hled] at hpays
  exact hpays.of_created hs hc

structure OwesRoyalty (o : SealedOrder) : Prop where
  sell : o.bid = false
  mode : o.terms.royaltyMode ≠ royaltyNone
  sized : o.terms.Sized

/-- An order of a bid instruction is a bid. -/
theorem sealedOrder_bid {maker ixSysvar : AccountInfo} {o : SealedOrder}
    (ho : sealedOrder tag E.accounts d = some (maker,ixSysvar,o)) : o.bid = decide (41 ≤ tag) := by
  unfold sealedOrder at ho
  split at ho
  · simp only [Option.bind_eq_bind, Option.bind_eq_some_iff] at ho
    obtain ⟨_,-,_,-,_,-,_,-,he⟩ := ho
    cases he
    rfl
  · cases ho

theorem Outcome.paysCreators (hs : SystemRules E.host) (h : Outcome E d m m' tag)
    (ht : IsSettle tag) (hm : m.trace = []) {maker ixSysvar : AccountInfo} {o : SealedOrder}
    (ho : sealedOrder tag E.accounts d = some (maker,ixSysvar,o)) (hdue : OwesRoyalty o) :
    PaysCreators E m.ledger o.give o.want o.terms.wantAmount (m'.trace.map Event.act) := by
  have hbid := sealedOrder_bid ho
  rw [hdue.sell] at hbid
  unfold IsSettle at ht
  cases h with
  | sold _ _ h => exact h.paysCreators hs hm ho hdue.mode
  | bought _ ht _ =>
    simp only [List.mem_cons, List.not_mem_nil, or_false] at ht
    rcases ht with rfl | rfl | rfl <;> exact absurd hbid (by decide)
  | cancelledListing _ ht' _ _ _ _ =>
    simp only [List.mem_cons, List.not_mem_nil, or_false] at ht'
    rcases ht' with rfl | rfl | rfl <;> exact absurd ht (by decide)
  | expiredListing _ ht' _ _ _ =>
    simp only [List.mem_cons, List.not_mem_nil, or_false] at ht'
    rcases ht' with rfl | rfl | rfl <;> exact absurd ht (by decide)
  | _ => exact absurd ht (by decide)

/-- A settle instruction that succeeds was past the signature of one order, and
if a sell order with a royalty has the signed message, its creators are paid. -/
theorem settled_paysCreators {c : Call} (hs : SystemRules H) (hf : Confined H) (ho : c.On H)
    (hdata : c.data = tag :: d) (ht : IsSettle tag) (hr : c.result s = some m) :
    ∃ maker ixSysvar o, sealedOrder tag c.env.accounts d = some (maker,ixSysvar,o) ∧
      SignedBefore c.env ixSysvar.key maker.key o.message ∧
      ∀ o', OwesRoyalty o' → o'.message = o.message →
        PaysCreators c.env s o'.give o'.want o'.terms.wantAmount (m.trace.map Event.act) := by
  obtain ⟨tag',d',hdata',hh⟩ := Call.handled hr
  rw [hdata] at hdata'
  cases hdata'
  obtain ⟨rfl,hw⟩ := ho
  have hsig : wp (handler c.env tag d) (fun _ _ => PassesSignature c.env tag d) (fun _ => True)
    ⟨s,[]⟩ :=
    wp_mono (handler_signed ht) (fun _ _ h => h) (fun _ _ => trivial)
  obtain ⟨maker,ixSysvar,o,ho,hv⟩ := wp_ok hsig hh
  refine ⟨maker,ixSysvar,o,ho,(verifyEd25519Order_ok _ _ _ _ m).mp (hv m),?_⟩
  intro o' hdue hmsg
  obtain rfl := message_injective o' o hdue.sized (sealedOrder_sized ho) hmsg
  exact (wp_ok (handler_outcome hs hw hf) hh).paysCreators hs ht rfl ho hdue

/-! ## Core assets -/

/-- A transfer of tokens makes no Core asset. -/
theorem transfer_coreOwner {tokenProg source mint dest authority : Pubkey} {n : ℕ} {dec : UInt8}
    {seeds : Option (List Bytes)} (ht : TokenRules E.host) (hp : IsTokenProgram tokenProg)
    (h : (transferAct tokenProg source mint dest authority n dec seeds).effect E s = some s')
    (x : Pubkey) :
    coreOwner s' x = coreOwner s x := by
  simp only [transferAct, Act.effect] at h
  split at h
  · obtain ⟨ts,td,hts,htd,-,-,-,-,-,-,-,-,hown,hrest,-⟩ := ht.transfer _ _ _ _ _ _ _ _ _ hp h
    have hnone : IsTokenProgram (s x).owner → coreOwner s' x = coreOwner s x := by
      intro hx
      have hnot : ∀ t : Ledger, IsTokenProgram (t x).owner → coreOwner t x = none := fun t htx =>
        Option.eq_none_iff_forall_not_mem.mpr fun o ho => coreOwner_not_token t x o ho htx
      rw [hnot s hx, hnot s' (hown x ▸ hx)]
    by_cases hsrc : x = source
    · exact hnone (hsrc ▸ (tokenAt_some _ _ _ hts).1)
    · by_cases hdst : x = dest
      · exact hnone (hdst ▸ (tokenAt_some _ _ _ htd).1)
      · exact coreOwner_congr _ _ _ (hown x) (congrArg Account.data (hrest x hsrc hdst))
  · cases h

theorem IsPayment.keeps_core {tokenProg source mint authority : Pubkey} {as : List Act}
    (ht : TokenRules E.host) (hp : IsTokenProgram tokenProg)
    (h : IsPayment tokenProg source mint authority as) (hd : Did E as m m') (x : Pubkey) :
    coreOwner m'.ledger x = coreOwner m.ledger x := by
  induction as generalizing m with
  | nil =>
    cases hd
    rfl
  | cons b as ih =>
    obtain ⟨s₁,hs₁,hd⟩ := hd
    obtain ⟨dest,n,dec,rfl⟩ := h b List.mem_cons_self
    have hrest := ih (fun c hc => h c (List.mem_cons_of_mem _ hc)) hd
    exact hrest.trans (transfer_coreOwner ht hp hs₁ x)

/-- What the fill of a Core listing moves was a Core asset before the call. -/
theorem FilledListing.is_core {r : RecordKeys} {pay : Payment} {collection newOwner : Pubkey}
    (ht : TokenRules E.host) (hcore : CoreRules E.host)
    (h : FilledListing E d m m₁ m' r pay
      (.coreTransfer mplCoreId r.giveMint collection r.taker r.record newOwner true)) :
    coreOwner m.ledger r.giveMint ≠ none := by
  obtain ⟨s₁,hs₁,-⟩ := h.did
  simp only [Act.effect] at hs₁
  split at hs₁
  · have hasset := (hcore.transfer _ _ _ _ _ _ _ _ hs₁).1
    rw [(isPayment_royaltyPriceActs _ _ _ _).keeps_core ht h.tokenProg h.paid.did] at hasset
    exact hasset
  · cases hs₁

/-! ## The uses of a listing -/

def closeListingTags : List UInt8 := [28,29,32,33,36,37]

inductive ListingUse (E : Env) (tag : UInt8) (d : Bytes) (m m' : Machine) (k : Pubkey) : Prop
  | listed (fresh : Vacant m.ledger k)
  | closed (ht : tag ∈ closeListingTags) (unsigned : ∀ j, ¬SignsIn E (m'.trace.map Event.act) j)
      (wiped : Wiped E.host (m'.ledger k))
  | filled (ht : tag ∈ fillListingTags) (m₁ : Machine) (r : RecordKeys) (pay : Payment)
      (record : r.record = k) (paid : PaidRecord E d m m₁ r pay)
      (acts : paidActs m r pay <:+: m'.trace.map Event.act)
      (stance : pay.mode = byteAt (m.ledger k).data sRoyaltyMode ∨
        tag = 35 ∧ coreOwner m.ledger r.giveMint ≠ none)
      (wiped : Wiped E.host (m'.ledger k))

theorem Outcome.listing_tag {maker : Pubkey} {nonce : Bytes} (hc : E.host.CollisionFree)
    (h : Outcome E d m m' tag) (hm : m.trace = []) (hk : (Place.listing maker nonce).At E.host k)
    (hu : Uses E (m'.trace.map Event.act) k) : tag ∈ listingTags := by
  rcases hu with hs | ht
  · exact h.maySign hc hm hk hs
  · obtain ⟨as,hd,hfp⟩ := h.within
    rw [did_trace _ _ _ hd, hm] at ht
    obtain ⟨q,hq,hqk⟩ := hfp.changes k ht
    rwa [hqk.inj hc hk] at hq

theorem FilledListing.use {r : RecordKeys} {pay : Payment} {move : Cpi} (hw : Wellformed E)
    (hf : Confined E.host) (h : FilledListing E d m m₁ m' r pay move) (hm : m.trace = [])
    (ht : tag ∈ fillListingTags) (hu : Uses E (m'.trace.map Event.act) k)
    (hs : pay.mode = byteAt (m.ledger r.record).data sRoyaltyMode ∨
      tag = 35 ∧ coreOwner m.ledger r.giveMint ≠ none) : ListingUse E tag d m m' k := by
  have hacts := h.acts hm
  have hk : k = r.record := by
    rw [Uses, hacts, signsIn_append, touchedIn_append] at hu
    rcases hu with hu | hu
    · have hj := hu.resolve_left (h.idle.1 k)
      simp at hj
      exact address_unique hj h.address
    · have hj := hu.resolve_left (h.idle.2 k)
      simpa using hj
  subst hk
  refine .filled ht m₁ r pay rfl h.toPaidRecord ?_ hs (h.wiped hw hf)
  rw [hacts]
  exact (List.prefix_append _ _).isInfix

theorem ClosedListing.use {maker listing : Pubkey} {nonce : Bytes} {pre : List Act}
    (hw : Wellformed E) (hf : Confined E.host) (h : ClosedListing E nonce m m' maker listing pre)
    (hm : m.trace = []) (ht : tag ∈ closeListingTags) (hu : Uses E (m'.trace.map Event.act) k) :
    ListingUse E tag d m m' k := by
  have hi : Idle E pre := unsigned_idle h.unsigned
  have hacts : m'.trace.map Event.act = pre ++ [.close listing maker] := by
    rw [did_trace _ _ _ h.did, hm]
    rfl
  have hsign : ∀ j, ¬SignsIn E (m'.trace.map Event.act) j := by
    intro j hj
    rw [hacts, signsIn_append] at hj
    exact hj.elim (hi.1 j) (signsIn_close _ _ _)
  have hk : k = listing := by
    have hj := hu.resolve_left (hsign k)
    rw [hacts, touchedIn_append] at hj
    simpa using hj.resolve_left (hi.2 k)
  subst hk
  have hend := close_wipes hw hf h.did (hi.2 k) (touchedIn_nil _) h.isOpen.owner
  exact .closed ht hsign ⟨hend.1,by rw [hend.2, zeros_length]⟩

theorem OpenedListing.use {maker listing giveMint wantMint : Pubkey} {kind bump : UInt8}
    {mid : List Act} {record : Bytes} (hs : SystemRules E.host)
    (h : OpenedListing E d m m' maker listing giveMint wantMint kind bump mid record)
    (hm : m.trace = []) (hu : Uses E (m'.trace.map Event.act) k) : ListingUse E tag d m m' k := by
  have hi : Idle E mid := unsigned_idle h.unsigned
  have hk : k = listing := by
    rw [Uses, did_trace _ _ _ h.did, hm, List.map_nil, List.nil_append, openListingActs] at hu
    rcases hu with hu | hu
    · rw [signsIn_append, signsIn_append] at hu
      simp [hi.1 k, createAct] at hu
      exact address_unique hu (E.host.find_create _ _ _ _ h.slot.address)
    · rw [touchedIn_append, touchedIn_append] at hu
      simpa [hi.2 k, createAct] using hu
  subst hk
  exact .listed (did_vacant hs h.did)

theorem Outcome.listingUse {maker : Pubkey} {nonce : Bytes} (hs : SystemRules E.host)
    (ht : TokenRules E.host) (hcore : CoreRules E.host) (hw : Wellformed E) (hf : Confined E.host)
    (hc : E.host.CollisionFree) (h : Outcome E d m m' tag) (hm : m.trace = [])
    (hk : (Place.listing maker nonce).At E.host k) (hu : Uses E (m'.trace.map Event.act) k) :
    ListingUse E tag d m m' k := by
  have htag := h.listing_tag hc hm hk hu
  cases h with
  | listedToken _ _ _ _ _ _ h => exact h.toOpenedListing.use hs hm hu
  | listedPnft _ _ _ _ _ _ h => exact h.toOpenedListing.use hs hm hu
  | listedCore _ _ _ _ _ _ h => exact h.toOpenedListing.use hs hm hu
  | cancelledListing _ ht' _ _ _ h =>
    refine h.toClosedListing.use hw hf hm ?_ hu
    simp only [closeListingTags, List.mem_cons, List.not_mem_nil, or_false] at ht' ⊢
    tauto
  | expiredListing _ ht' _ _ h =>
    refine h.toClosedListing.use hw hf hm ?_ hu
    simp only [closeListingTags, List.mem_cons, List.not_mem_nil, or_false] at ht' ⊢
    tauto
  | filledToken _ _ _ _ _ _ _ h =>
    exact h.toFilledListing.use hw hf hm (by decide) hu (.inl h.mode)
  | filledNft _ _ _ _ _ _ h =>
    exact h.toFilledListing.use hw hf hm (by decide) hu (.inl h.mode)
  | filledListingCore _ _ _ _ h =>
    exact h.use hw hf hm (by decide) hu (.inr ⟨rfl,h.is_core ht hcore⟩)
  | sold _ ht' _ =>
    simp only [List.mem_cons, List.not_mem_nil, or_false] at ht'
    rcases ht' with rfl | rfl | rfl <;> exact absurd htag (by decide)
  | bought _ ht' _ =>
    simp only [List.mem_cons, List.not_mem_nil, or_false] at ht'
    rcases ht' with rfl | rfl | rfl <;> exact absurd htag (by decide)
  | _ => exact absurd htag (by decide)

/-! ## Runs -/

structure Royal (H : Host) (a : Account) : Prop where
  live : Live H a
  mode : byteAt a.data sRoyaltyMode ≠ royaltyNone

def KeepsStance (k : Pubkey) (a : Action) (s _ : Ledger) : Prop :=
  ∀ c d, a = .call c → c.data = 35 :: d → SlotIs c.env 1 k →
    coreOwner s (keyAt (s k).data sGiveMint) = none

inductive RoyalStep (H : Host) (k : Pubkey) (a : Action) (s s' : Ledger) : Prop
  | kept (owner : (s' k).owner = H.programId) (data : (s' k).data = (s k).data)
      (unused : ∀ c m, a = .call c → c.result s = some m → ¬SignsIn c.env (m.trace.map Event.act) k)
  | closed (c : Call) (m : Machine) (ha : a = .call c) (hr : c.result s = some m)
      (tag : ∃ t ∈ closeListingTags, ∃ d, c.data = t :: d)
      (unsigned : ∀ j, ¬SignsIn c.env (m.trace.map Event.act) j) (wiped : Wiped H (s' k))
  | filled (c : Call) (m : Machine) (ha : a = .call c) (hr : c.result s = some m)
      (tag : ∃ t ∈ fillListingTags, ∃ d, c.data = t :: d)
      (paid : PaysCreators c.env s (keyAt (s k).data sGiveMint) (keyAt (s k).data sWantMint)
        (u64At (s k).data sWantAmt) (m.trace.map Event.act))
      (wiped : Wiped H (s' k))

theorem Step.royal {maker : Pubkey} {nonce : Bytes} (hs : SystemRules H) (ht : TokenRules H)
    (hcore : CoreRules H) (hf : Confined H) (hc : H.CollisionFree)
    (hk : (Place.listing maker nonce).At H k) (hstep : Step H a s s') (hl : Royal H (s k))
    (hpos : 0 < (s k).lamports) (hstance : KeepsStance k a s s') : RoyalStep H k a s s' := by
  cases hstep with
  | call c _ m ho hr =>
    obtain ⟨tag,d,hdata,hout⟩ := Call.outcome hs hf ho hr
    obtain ⟨rfl,hw⟩ := ho
    by_cases hu : Uses c.env (m.trace.map Event.act) k
    · cases hout.listingUse hs ht hcore hw hf hc rfl hk hu with
      | listed hv => exact (hw.notSystem (hl.live.1.symm.trans hv.1)).elim
      | closed htag hns hwiped => exact .closed c m rfl hr ⟨tag,htag,d,hdata⟩ hns hwiped
      | filled htag m₁ r pay hrec hpaid hacts hmode hwiped =>
        subst hrec
        have hgive : r.giveMint = keyAt (s r.record).data sGiveMint := hpaid.fillable.2.2.1.symm
        have hwant : r.wantMint = keyAt (s r.record).data sWantMint := hpaid.fillable.2.2.2.1.symm
        have hroyal : pay.mode ≠ royaltyNone := by
          rcases hmode with hmode | ⟨htag,hasset⟩
          · exact hmode ▸ hl.mode
          · rw [htag] at hdata
            rw [hgive] at hasset
            exact (hasset (hstance c d rfl hdata hpaid.slot)).elim
        have hpays := hpaid.paid.paysCreators hroyal hpaid.tokenProg (u64At_le _ _) hacts
        rw [hgive, hwant] at hpays
        exact .filled c m rfl hr ⟨tag,htag,d,hdata⟩ hpays hwiped
    · rw [Uses, not_or] at hu
      obtain ⟨as,hd,-⟩ := hout.within
      have hacts : m.trace.map Event.act = as := did_trace _ _ _ hd
      obtain ⟨howner,hsame,-⟩ := (ran_frame hw hf as hd.ran).owned k hl.live.1 (hacts ▸ hu.2)
      refine .kept howner hsame fun c' m' hc' hr' => ?_
      cases hc'
      rw [hr] at hr'
      cases hr'
      exact hu.1
  | outside _ _ hfr =>
    obtain ⟨howner,hdata,-⟩ := hfr.owned k hl.live.1 id
    exact .kept howner hdata (by rintro c m ⟨⟩)
  | reap =>
    have he := reap_live hpos
    exact .kept (he ▸ hl.live.1) (congrArg Account.data he) (by rintro c m ⟨⟩)

/-- A royalty is dodged by no other instruction than the fill of a Core listing: in
every reachable state each other step keeps a live listing with a royalty, closes
it without a signature, or fills it and pays its creators; and so does that fill
while the mint is no Core asset. The settlement of a signed sell order with a
royalty pays its creators. -/
theorem royalty_not_dodged {s₀ : Ledger} (hs : SystemRules H) (ht : TokenRules H)
    (hcore : CoreRules H) (hf : Confined H) (hc : H.CollisionFree) (hsys : H.programId ≠ systemId)
    (hg : Genesis H s₀) :
    (∀ s, Run H Keyed s₀ s → ∀ maker nonce k, (Place.listing maker nonce).At H k →
      Royal H (s k) → ∀ a s', Step H a s s' → KeepsStance k a s s' → RoyalStep H k a s s') ∧
    ∀ (c : Call) tag d s m, c.On H → c.data = tag :: d → IsSettle tag → c.result s = some m →
      ∃ maker ixSysvar o, sealedOrder tag c.env.accounts d = some (maker,ixSysvar,o) ∧
        SignedBefore c.env ixSysvar.key maker.key o.message ∧
        ∀ o', OwesRoyalty o' → o'.message = o.message →
          PaysCreators c.env s o'.give o'.want o'.terms.wantAmount (m.trace.map Event.act) := by
  constructor
  · intro s hrun maker nonce k hk hl a s' hstep hstance
    have hslot : Slot H (.listing maker nonce) (s k) := run_slot hs hf hc hsys hg hrun rfl hk
    exact hstep.royal hs ht hcore hf hc hk hl (hslot.live_of hsys hl.live).2.1 hstance
  · intro c tag d s m ho hdata ht hr
    exact settled_paysCreators hs hf ho hdata ht hr

section
open Xete.Market Xete.Reference

theorem stallStart_genesis : Genesis stall stallStart :=
  genesis_of stall_collisionFree ⟨trivial,255,by decide⟩ (by decide)

/-- A listing at 400 whose price is paid with the royalty of the artist. -/
theorem royalty_not_dodged_filled : ∃ m₁ m₂ : Machine,
    (listCall 100 400 royaltyMaker 0).result stallStart = some m₁ ∧
    (fillListingCall 100 400 [splTokenId,metadataKey,artistB]).result m₁.ledger = some m₂ ∧
    PaysCreators (fillListingCall 100 400 [splTokenId,metadataKey,artistB]).env m₁.ledger mintA
      mintB 400 (m₂.trace.map Event.act) := by
  have h : (((listCall 100 400 royaltyMaker 0).result stallStart).any fun m₁ =>
      decide (Live stall (m₁.ledger listingKey) ∧
        byteAt (m₁.ledger listingKey).data sRoyaltyMode ≠ royaltyNone ∧
        keyAt (m₁.ledger listingKey).data sGiveMint = mintA ∧
        keyAt (m₁.ledger listingKey).data sWantMint = mintB ∧
        u64At (m₁.ledger listingKey).data sWantAmt = 400) &&
      ((fillListingCall 100 400 [splTokenId,metadataKey,artistB]).result m₁.ledger).any fun m₂ =>
        decide (.invoke (.transferChecked splTokenId makerA mintA takerA listingKey 100 0)
          (some (bumped (listingSeeds maker nonce) 255)) ∈ m₂.trace.map Event.act)) = true := by
    decide +kernel
  simp only [Option.any_eq_true, Bool.and_eq_true, decide_eq_true_eq] at h
  obtain ⟨m₁,h₁,⟨hlive,hmode,hgive,hwant,hprice⟩,m₂,h₂,hmem⟩ := h
  have hrun : Run stall Keyed stallStart m₁.ledger :=
    .single ⟨_,.call _ _ _ (stallSees_on _ _ _ _ (by decide)) h₁,keyed_of (by decide)⟩
  have hstep := (royalty_not_dodged stall_systemRules (host_tokenRules _ _) (host_coreRules _ _)
    stall_confined stall_collisionFree market_apart.notSystem stallStart_genesis).1 _ hrun
    maker nonce listingKey ⟨rfl,255,by decide⟩ ⟨hlive,hmode⟩
    (.call (fillListingCall 100 400 [splTokenId,metadataKey,artistB])) m₂.ledger
    (.call _ _ _ (stallSees_on _ _ _ _ (by decide)) h₂) (by
      intro c d hc hd
      cases hc
      exact absurd (List.cons.inj hd).1 (by decide))
  have hpays : PaysCreators (fillListingCall 100 400 [splTokenId,metadataKey,artistB]).env m₁.ledger
      mintA mintB 400 (m₂.trace.map Event.act) := by
    cases hstep with
    | kept _ _ hunused => exact (hunused _ _ rfl h₂ ⟨_,_,hmem,by decide⟩).elim
    | closed c m hc hr _ hns _ =>
      cases hc
      rw [h₂] at hr
      cases hr
      exact (hns listingKey ⟨_,_,hmem,by decide⟩).elim
    | filled c m hc hr _ hpaid _ =>
      cases hc
      rw [h₂] at hr
      cases hr
      rw [hgive, hwant, hprice] at hpaid
      exact hpaid
  exact ⟨m₁,m₂,h₁,h₂,hpays⟩

/-! ## A mint that becomes a Core asset -/

def closableMint : Account where
  lamports := 2000000
  owner := token2022Id
  data := patches (zeros 202) [(45,[1]),(165,[1]),(166,le 2 3 ++ le 2 32),(170,maker.bytes)]

def closableStart : Ledger :=
  Function.update (Function.update stallStart mintA closableMint) makerA
    { tokenAccount mintA maker 1000 with owner := token2022Id }

def listClosableCall : Call where
  env := stallSees 0 maker [listingKey,mintA,mintB,makerA,token2022Id,systemId,configKey,systemId]
  data := (listCall 100 400 royaltyMaker 0).data

def burnt (s : Ledger) : Ledger := Function.update s makerA
  { s makerA with data := patch (s makerA).data 64 (le 8 0) }

def reborn (s : Ledger) : Ledger := Function.update s mintA
  ⟨2000000,mplCoreId,[1] ++ listingKey.bytes ++ zeros 10⟩

def fillCoreCall : Call where
  env := stallSees 1 taker [listingKey,maker,mintA,mintB,takerB,makerB,splTokenId,configKey,feeB,
    mplCoreId]
  data := 35 :: nonce ++ le 8 100 ++ le 8 400

/-- Other programs change an account that is none of this program's. -/
theorem outside_update {x : Account} (ho : (s k).owner ≠ H.programId) (hk : ¬H.IsPda k) :
    Step H .outside s (Function.update s k x) := by
  refine .outside _ _ ⟨fun b hb _ => ?_,fun b hb _ hv => ?_⟩
  · rw [Function.update_of_ne (by rintro rfl; exact ho hb)]
    exact ⟨hb,rfl,le_refl _⟩
  · rw [Vacant, Function.update_of_ne (by rintro rfl; exact hk hb)]
    exact hv

def isTransferOf (n : ℕ) : Act → Bool
  | .invoke (.transferChecked _ _ _ _ _ amount _) none => amount = n
  | _ => false

/-- Where no twenty units are paid, the artist is not paid. -/
theorem not_paysCreators (hH : E.host = stall) {as : List Act}
    (hmd : parseTmRoyalty (s metadataKey).data = some (500,[(artist,100)]))
    (has : ∀ a ∈ as, isTransferOf 20 a = false) : ¬PaysCreators E s mintA mintB 400 as := by
  rintro ⟨bps,creators,md,tokenProg,source,payer,dec,parts,h⟩
  obtain ⟨-,b,hb⟩ := h.metadata
  have hfind : stall.findProgramAddress (metadataSeeds mintA) tokenMetadataId =
      some (metadataKey,255) := by decide
  rw [hH, hfind, Option.some_inj, Prod.mk.injEq] at hb
  have hparsed := h.parsed
  rw [← hb.1, hmd, Option.some_inj, Prod.mk.injEq] at hparsed
  obtain ⟨rfl,rfl⟩ := hparsed
  obtain ⟨q,rfl⟩ := List.length_eq_one_iff.mp h.count
  have hq : q.2 = 20 := by simpa using h.sum
  have hmem : transferAct tokenProg source mintB q.1.key payer 20 dec none ∈ as := by
    apply h.did.subset
    simp [royaltyActs, hq]
  simpa [transferAct, isTransferOf] using has _ hmem

/-- A listing with a royalty whose mint becomes a Core asset: the fill of a Core
listing takes it, and pays no royalty. -/
theorem royalty_dodged : ∃ (m₁ m₂ : Machine) (s : Ledger),
    listClosableCall.result closableStart = some m₁ ∧ s = reborn (burnt m₁.ledger) ∧
    Genesis stall closableStart ∧ Run stall Keyed closableStart s ∧
    (Place.listing maker nonce).At stall listingKey ∧ Royal stall (s listingKey) ∧
    keyAt (s listingKey).data sGiveMint = mintA ∧ keyAt (s listingKey).data sWantMint = mintB ∧
    u64At (s listingKey).data sWantAmt = 400 ∧
    fillCoreCall.On stall ∧ fillCoreCall.result s = some m₂ ∧ ¬Live stall (m₂.ledger listingKey) ∧
    coreOwner m₂.ledger mintA = some taker ∧
    ¬PaysCreators fillCoreCall.env s mintA mintB 400 (m₂.trace.map Event.act) := by
  have h : ((listClosableCall.result closableStart).any fun m₁ =>
      decide ((m₁.ledger makerA).owner ≠ programKey ∧ (m₁.ledger mintA).owner ≠ programKey ∧
        Live stall (reborn (burnt m₁.ledger) listingKey) ∧
        byteAt (reborn (burnt m₁.ledger) listingKey).data sRoyaltyMode ≠ royaltyNone ∧
        keyAt (reborn (burnt m₁.ledger) listingKey).data sGiveMint = mintA ∧
        keyAt (reborn (burnt m₁.ledger) listingKey).data sWantMint = mintB ∧
        u64At (reborn (burnt m₁.ledger) listingKey).data sWantAmt = 400 ∧
        parseTmRoyalty (reborn (burnt m₁.ledger) metadataKey).data = some (500,[(artist,100)])) &&
      (fillCoreCall.result (reborn (burnt m₁.ledger))).any fun m₂ =>
        decide (¬Live stall (m₂.ledger listingKey) ∧ coreOwner m₂.ledger mintA = some taker ∧
          ∀ a ∈ m₂.trace.map Event.act, isTransferOf 20 a = false)) = true := by
    decide +kernel
  simp only [Option.any_eq_true, Bool.and_eq_true, decide_eq_true_eq] at h
  obtain ⟨m₁,h₁,⟨hmaker,hmint,hlive,hmode,hgive,hwant,hprice,hmd⟩,m₂,h₂,hdead,howner,has⟩ := h
  have hpda : ∀ {a}, a ∉ stallTable.map (fun e => e.2.2) → ¬stall.IsPda a :=
    fun ha hp => ha (host_isPda _ _ _ hp)
  have hrun : Run stall Keyed closableStart (reborn (burnt m₁.ledger)) := by
    have hlisted : Run stall Keyed closableStart m₁.ledger :=
      .single ⟨_,.call _ _ _ (stallSees_on _ _ _ _ (by decide)) h₁,keyed_of (by decide)⟩
    have hburnt : Run stall Keyed closableStart (burnt m₁.ledger) :=
      .tail hlisted ⟨.outside,outside_update hmaker (hpda (by decide)),by rintro c ⟨⟩⟩
    have hkept : (burnt m₁.ledger mintA).owner ≠ stall.programId := by
      rw [show burnt m₁.ledger mintA = m₁.ledger mintA from Function.update_of_ne (by decide) _ _]
      exact hmint
    exact .tail hburnt ⟨.outside,outside_update hkept (hpda (by decide)),by rintro c ⟨⟩⟩
  exact ⟨m₁,m₂,_,h₁,rfl,genesis_of stall_collisionFree ⟨trivial,255,by decide⟩ (by decide),hrun,
    ⟨rfl,255,by decide⟩,⟨hlive,hmode⟩,hgive,hwant,hprice,stallSees_on _ _ _ _ (by decide),h₂,hdead,
    howner,not_paysCreators rfl hmd has⟩

end

end Xete.Swap
