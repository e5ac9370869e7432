import XetePrograms.Swap.BasketBounds
import XetePrograms.Swap.Bearer

/-!
# The form of a basket

A basket is written once, by its opening. Only `rewrap` rewrites it, and only
its claim authority, so every open basket keeps the form it was opened with.
-/

set_option autoImplicit false

namespace Xete.Swap
open Xete.Octets Xete.Weakest Xete.Chain Xete.Token Xete.Runtime Xete.Rules

variable {E : Env} {H : Host} {m m' : Machine} {d b b' : Bytes} {maker swap tokenProg k : Pubkey}
  {bump tag : UInt8} {w g : ℕ → List Act} {s s' : Ledger} {a : Action}

structure BasketForm (b : Bytes) : Prop where
  length : b.length = basketLen
  gives : 1 ≤ (byteAt b bGiveCount).toNat ∧ (byteAt b bGiveCount).toNat ≤ maxLeg
  wants : (byteAt b bWantCount).toNat ≤ maxLeg
  givePositive : ∀ i < (byteAt b bGiveCount).toNat, entryAmount b bGive i ≠ 0
  wantPositive : ∀ j < (byteAt b bWantCount).toNat, entryAmount b bWant j ≠ 0
  apart : ∀ i < (byteAt b bGiveCount).toNat, ∀ j < (byteAt b bWantCount).toNat,
    entryMint b bGive i ≠ entryMint b bWant j
  mode : byteAt b bAuthMode = authNormal ∨ byteAt b bAuthMode = authBearer
  bearer : byteAt b bAuthMode = authBearer →
    (byteAt b bWantCount).toNat = 0 ∧ slice b bClaimAuth 32 ≠ zeros 32

structure FaithfulEntries (E : Env) (d b : Bytes) : Prop where
  giveCount : (byteAt b bGiveCount).toNat = giveCount d
  wantCount : (byteAt b bWantCount).toNat = wantCount d
  gives : ∀ i < Xete.Swap.giveCount d, SlotIs E (6+i*3) (entryMint b bGive i) ∧
    entryAmount b bGive i = u64At d (34+i*8)
  wants : ∀ j < Xete.Swap.wantCount d, entryMint b bWant j = keyAt d (wantOff d+j*entryLen) ∧
    entryAmount b bWant j = u64At d (wantOff d+j*entryLen+32)

/-! ## Opening -/

section
variable (h : BasketSized d) {n j : ℕ}
include h

theorem basketRecord_wantMint (hn : n ≤ giveCount d) (hj : j < wantCount d) :
    slice (basketRecord E maker d bump n) (bWant+j*entryLen) 32 =
      slice d (wantOff d+j*entryLen) 32 := by
  have hw : slice (basketRecord E maker d bump n) (bWant+j*entryLen) entryLen =
      slice d (wantOff d+j*entryLen) entryLen := basketRecord_want h hn hj
  have he := congrArg (fun x => slice x 0 32) hw
  simpa [slice_slice, entryLen] using he

theorem basketRecord_wantAmount (hn : n ≤ giveCount d) (hj : j < wantCount d) :
    entryAmount (basketRecord E maker d bump n) bWant j = u64At d (wantOff d+j*entryLen+32) := by
  have hw : slice (basketRecord E maker d bump n) (bWant+j*entryLen) entryLen =
      slice d (wantOff d+j*entryLen) entryLen := basketRecord_want h hn hj
  have he := congrArg (fun x => slice x 32 8) hw
  simp only [slice_slice _ _ _ _ _ (show 32+8 ≤ entryLen by decide)] at he
  rw [entryAmount, u64At, u64At, he]

end

theorem OpenedBasket.faithful (h : OpenedBasket E d m m' maker swap tokenProg bump w g) :
    FaithfulEntries E d (basketRecord E maker d bump (giveCount d)) where
  giveCount := (basketRecord_header h.sized (le_refl _)).giveCount
  wantCount := (basketRecord_header h.sized (le_refl _)).wantCount
  gives i hi := by
    have hread : entryMint (basketRecord E maker d bump (Xete.Swap.giveCount d)) bGive i =
      giveMintAt E i ∧ entryAmount (basketRecord E maker d bump (Xete.Swap.giveCount d)) bGive i =
        giveAmountAt d i :=
      basketRecord_give h.sized (le_refl _) hi
    obtain ⟨hmint,hamount⟩ := hread
    obtain ⟨_,_,_,_,hslot,-⟩ := h.legs i hi
    exact ⟨hmint ▸ hslot,hamount⟩
  wants j hj := ⟨keyAt_congr (basketRecord_wantMint h.sized (le_refl _) hj),
    basketRecord_wantAmount h.sized (le_refl _) hj⟩

theorem OpenedBasket.form (h : OpenedBasket E d m m' maker swap tokenProg bump w g)
    (hc : CheckedEntries E maker d bump) :
    BasketForm (basketRecord E maker d bump (giveCount d)) := by
  have hh : HeaderReads maker d (basketRecord E maker d bump (giveCount d)) bump :=
    basketRecord_header h.sized (le_refl _)
  have hf := h.faithful
  constructor
  · exact basketRecord_length h.sized (le_refl _)
  · rw [hh.giveCount]
    exact ⟨h.counts.1,h.counts.2.1⟩
  · rw [hh.wantCount]
    exact h.counts.2.2
  · rw [hh.giveCount]
    intro i hi
    obtain ⟨_,_,_,_,-,hpos,-⟩ := h.legs i hi
    rw [(hf.gives i hi).2]
    exact hpos
  · rw [hh.wantCount]
    intro j hj
    rw [(hf.wants j hj).2]
    exact hc.positive j hj
  · rw [hh.giveCount, hh.wantCount]
    intro i hi j hj he
    -- the want entries stay as they are while the give entries are written
    have hmint : entryMint (basketRecord E maker d bump (giveCount d)) bGive i = giveMintAt E i :=
      (basketRecord_give h.sized (le_refl _) hi).1
    have hwant : (entryMint (basketRecord E maker d bump (giveCount d)) bWant j).bytes =
        slice d (wantOff d+j*entryLen) 32 := by
      rw [(hf.wants j hj).1]
      exact keyAt_bytes _ _
        (by have := h.length; unfold tailOff at this; simp only [entryLen] at *; omega)
    apply hc.apart i hi j hj
    rw [basketRecord_wantMint h.sized hi.le hj, ← hwant, ← he, hmint]
  · rw [hh.authMode]
    exact h.mode
  · rw [hh.authMode, hh.wantCount, hh.claimAuth]
    exact h.bearer

/-! ## Rewrapping -/

section
variable (h : SameTerms b b')
include h

theorem SameTerms.byte {off : ℕ} (ho : off+1 ≤ bClaimAuth ∨ bClaimAuth+32 ≤ off) :
    byteAt b' off = byteAt b off := by
  rw [byteAt_eq_slice, h.field off 1 ho, ← byteAt_eq_slice]

theorem SameTerms.mint {base i : ℕ} (ho : base+i*entryLen+32 ≤ bClaimAuth) :
    entryMint b' base i = entryMint b base i := keyAt_congr (h.field _ 32 (.inl ho))

theorem SameTerms.amount {base i : ℕ} (ho : base+i*entryLen+40 ≤ bClaimAuth) :
    entryAmount b' base i = entryAmount b base i :=
  congrArg natLe (h.field _ 8 (.inl (by omega)))

/-- A fresh claim authority keeps the form. -/
theorem BasketForm.rewrap (hf : BasketForm b) (hfresh : slice b' bClaimAuth 32 ≠ zeros 32) :
    BasketForm b' := by
  have hgive : ∀ i < (byteAt b bGiveCount).toNat, bGive+i*entryLen+40 ≤ bClaimAuth := by
    have := hf.gives.2
    simp only [bGive, entryLen, bClaimAuth, maxLeg] at *
    omega
  have hwant : ∀ j < (byteAt b bWantCount).toNat, bWant+j*entryLen+40 ≤ bClaimAuth := by
    have := hf.wants
    simp only [bWant, entryLen, bClaimAuth, maxLeg] at *
    omega
  have hgives : byteAt b' bGiveCount = byteAt b bGiveCount := h.byte (by decide)
  have hwants : byteAt b' bWantCount = byteAt b bWantCount := h.byte (by decide)
  have hmode : byteAt b' bAuthMode = byteAt b bAuthMode := h.byte (by decide)
  constructor
  · exact h.length.trans hf.length
  · rw [hgives]
    exact hf.gives
  · rw [hwants]
    exact hf.wants
  · intro i hi
    rw [hgives] at hi
    rw [h.amount (hgive i hi)]
    exact hf.givePositive i hi
  · intro j hj
    rw [hwants] at hj
    rw [h.amount (hwant j hj)]
    exact hf.wantPositive j hj
  · intro i hi j hj
    rw [hgives] at hi
    rw [hwants] at hj
    have hi' := hgive i hi
    have hj' := hwant j hj
    rw [h.mint (by omega), h.mint (by omega)]
    exact hf.apart i hi j hj
  · rw [hmode]
    exact hf.mode
  · rw [hmode, hwants]
    exact fun hb => ⟨(hf.bearer hb).1,hfresh⟩

end

/-! ## Runs -/

inductive BasketSlot (H : Host) (a : Account) : Prop
  | vacant (owner : a.owner = systemId) (data : a.data = [])
  | wiped (h : Wiped H a)
  | formed (owner : a.owner = H.programId) (form : BasketForm a.data)

theorem BasketSlot.frame {signed touched : Pubkey → Prop} (hf : Frame H signed touched s s')
    (hk : H.IsPda k) (hns : ¬signed k) (hnt : ¬touched k) (h : BasketSlot H (s k)) :
    BasketSlot H (s' k) := by
  cases h with
  | vacant ho hd =>
    obtain ⟨ho',hd'⟩ := hf.vacant k hk hns ⟨ho,hd⟩
    exact .vacant ho' hd'
  | wiped h =>
    obtain ⟨ho,hd,-⟩ := hf.owned k h.1 hnt
    exact .wiped ⟨ho,by rw [hd]; exact h.2⟩
  | formed ho hform =>
    obtain ⟨ho',hd,-⟩ := hf.owned k ho hnt
    exact .formed ho' (by rw [hd]; exact hform)

theorem Rewrapped.basketSlot {bearer : Pubkey} (hw : Wellformed E) (h : Rewrapped E d m m' k bearer)
    (hs : BasketSlot E.host (m.ledger k)) : BasketSlot E.host (m'.ledger k) := by
  have hst : Stores E k (patch (m.ledger k).data bClaimAuth (slice d 32 32)) m' := by
    obtain ⟨s₁,he,rfl⟩ := h.did
    exact effect_write_stores he
  have hauth : (slice d 32 32).length = 32 := slice_length _ _ _ (by have := h.length; omega)
  cases hs with
  | vacant ho _ => exact (hw.notSystem (h.owner.symm.trans ho)).elim
  | wiped hz =>
    have hmode := h.mode
    rw [hz.2, byteAt_zeros] at hmode
    exact absurd hmode (by decide)
  | formed _ hform =>
    refine .formed hst.1 ?_
    rw [hst.2]
    apply hform.rewrap (sameTerms_rekey h.size hauth)
    have hp : slice (patch (m.ledger k).data bClaimAuth (slice d 32 32)) bClaimAuth 32 =
      slice d 32 32 :=
      slice_patch_same _ _ _ _ hauth (by rw [h.size]; decide)
    rw [hp]
    exact h.fresh

theorem Step.basketSlot {nonce : Bytes} (hs : SystemRules H) (hf : Confined H)
    (hc : H.CollisionFree) (hk : (Place.basket maker nonce).At H k) (hstep : Step H a s s')
    (h : BasketSlot H (s k)) : BasketSlot H (s' k) := by
  cases hstep with
  | call c _ m ho hr =>
    obtain ⟨tag,d,hdata,hh⟩ := Call.handled hr
    obtain ⟨rfl,hw⟩ := ho
    have hout := wp_ok (handler_outcome hs hw hf) hh
    by_cases hu : Uses c.env (m.trace.map Event.act) k
    · cases hout.basketEnd hw hf hc rfl hk hu with
      | opened _ _ _ _ _ ho =>
        obtain ⟨maker,swap,tokenProg,bump,w,g,hop,-,hck⟩ := wp_ok (openBasket_opens hs hw hf) hh
        obtain rfl : k = swap := SlotIs.inj ho.slot hop.slot
        refine .formed hop.stores.1 ?_
        rw [hop.stores.2]
        exact hop.form hck
      | filled _ _ _ _ _ _ wiped => exact .wiped wiped
      | claimed _ _ _ _ _ wiped => exact .wiped wiped
      | rewrapped bearer hr => exact hr.basketSlot hw h
      | cancelled _ _ _ _ _ _ wiped => exact .wiped wiped
      | expired _ _ _ _ wiped => exact .wiped wiped
    · rw [Uses, not_or] at hu
      obtain ⟨as,hd,-⟩ := hout.within
      rw [did_trace _ _ _ hd, List.map_nil, List.nil_append] at hu
      exact h.frame (ran_frame hw hf as hd.ran) hk.isPda hu.1 hu.2
  | outside _ _ hfr => exact h.frame hfr hk.isPda id id
  | reap =>
    by_cases hl : (s k).lamports = 0
    · have hr : Swap.reap s k = ⟨0,systemId,[]⟩ := reap_dead hl
      rw [hr]
      exact .vacant rfl rfl
    · have hr : Swap.reap s k = s k := reap_live (Nat.pos_of_ne_zero hl)
      rw [hr]
      exact h

theorem run_basketSlot {nonce : Bytes} (hs : SystemRules H) (hf : Confined H) (hc : H.CollisionFree)
    (hg : Genesis H s) (h : Run H AnyStep s s') (hk : (Place.basket maker nonce).At H k) :
    BasketSlot H (s' k) := by
  refine h.invariant (P := fun s => BasketSlot H (s k)) (fun a s s' hstep _ h => ?_) ?_
  · exact hstep.basketSlot hs hf hc hk h
  · obtain ⟨ho,hd⟩ := hg.vacant rfl hk
    exact .vacant ho hd

/-- `open_basket` indexes within bounds whatever it is given, the record it
writes has the entries of the call, and over a run every open basket is well formed. -/
theorem basket_wellformed (hs : SystemRules H) (hf : Confined H) (hc : H.CollisionFree)
    (hsys : H.programId ≠ systemId) :
    (∀ (E : Env) d m, E.host = H → Wellformed E →
      openBasketIndexed E d m = openBasket E d m ∧
      (∀ m', openBasketIndexed E d m ≠ .error .outOfBounds m') ∧
      ∀ u m', openBasket E d m = .ok u m' → ∃ k, SlotIs E 1 k ∧
        (m'.ledger k).owner = H.programId ∧ FaithfulEntries E d (m'.ledger k).data) ∧
    ∀ s₀ s, Genesis H s₀ → Run H AnyStep s₀ s → ∀ maker nonce k, (Place.basket maker nonce).At H k →
      Live H (s k) → BasketForm (s k).data := by
  constructor
  · rintro E d m rfl hw
    obtain ⟨heq,hbounds⟩ := openBasketIndexed_eq hs hw hf d m
    refine ⟨heq,hbounds,?_⟩
    intro u m' hx
    obtain ⟨maker,swap,tokenProg,bump,w,g,hop,-⟩ := wp_ok (openBasket_opens hs hw hf) hx
    refine ⟨swap,hop.slot,hop.stores.1,?_⟩
    rw [hop.stores.2]
    exact hop.faithful
  · intro s₀ s hg hrun maker nonce k hk hlive
    cases run_basketSlot hs hf hc hg hrun hk with
    | vacant ho _ => exact (hsys (hlive.1.symm.trans ho)).elim
    | wiped h => exact (hlive.2 h.2).elim
    | formed _ hform => exact hform

section
open Xete.Market Xete.Reference

/-- The baskets that the maker opens for a taker and for a key. -/
theorem basket_wellformed_opened :
    ∃ m m₁ : Machine, (Market.openPairsCall 60 40 300 200).result start = some m ∧
    openBearerCall.result start = some m₁ ∧
    FaithfulEntries (Market.openPairsCall 60 40 300 200).env
      ((Market.openPairsCall 60 40 300 200).data.drop 1) (m.ledger basketKey).data ∧
    BasketForm (m.ledger basketKey).data ∧ BasketForm (m₁.ledger basketKey).data := by
  have h : ((Market.openPairsCall 60 40 300 200).result start).any (fun m =>
      decide (Live market (m.ledger basketKey))) = true := by
    decide +kernel
  have h₁ : (openBearerCall.result start).any (fun m => decide (Live market (m.ledger basketKey))) =
    true := by
    decide +kernel
  simp only [Option.any_eq_true, decide_eq_true_eq] at h h₁
  obtain ⟨m,hm,hlive⟩ := h
  obtain ⟨m₁,hm₁,hlive₁⟩ := h₁
  obtain ⟨hopen,hform⟩ := basket_wellformed market_systemRules market_confined market_collisionFree
    market_apart.notSystem
  have hk : (Place.basket maker nonce).At market basketKey := ⟨rfl,255,by decide⟩
  have hrun : ∀ (c : Call) m, c.On market → c.result start = some m →
    Run market AnyStep start m.ledger :=
    fun c m ho hr => .single ⟨_,.call _ _ _ ho hr,trivial⟩
  have ho : (Market.openPairsCall 60 40 300 200).On market := sees_on _ _ _ _ (by decide)
  have ho₁ : openBearerCall.On market := sees_on _ _ _ _ (by decide)
  obtain ⟨tag,d,hdata,hh⟩ := Call.handled hm
  cases hdata
  obtain ⟨-,-,hfaith⟩ := hopen (Market.openPairsCall 60 40 300 200).env _ ⟨start,
    []⟩ rfl ho.wellformed
  obtain ⟨k,hslot,-,hentries⟩ := hfaith _ m hh
  have hslot' : SlotIs (Market.openPairsCall 60 40 300 200).env 1 basketKey := rfl
  obtain rfl : basketKey = k := SlotIs.inj hslot' hslot
  exact ⟨m,m₁,hm,hm₁,hentries,
    hform _ _ start_genesis (hrun _ _ ho hm) _ _ _ hk hlive,
    hform _ _ start_genesis (hrun _ _ ho₁ hm₁) _ _ _ hk hlive₁⟩

end

end Xete.Swap
