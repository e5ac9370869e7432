import XetePrograms.Swap.RecordRun

/-!
# A closed record is never usable again

The zeros of a closed record read as an open one. What refuses it differs from
instruction to instruction: the clock, the signature of the recorded party, the
bearer mode, or the address of the record.
-/

set_option autoImplicit false

namespace Xete.Swap
open Xete.Octets Xete.Weakest Xete.Chain Xete.Token Xete.Runtime Xete.Rules

variable {E : Env} {H : Host} {m m₁ m' : Machine} {d : Bytes} {tag : UInt8} {k : Pubkey} {i : ℕ}

def recordSlots (tag : UInt8) : List ℕ :=
  if tag = 4 then [1,4]
  else if tag = 5 then [1,3]
  else if tag = 14 then [2]
  else if tag < 8 ∨ 12 ≤ tag ∧ tag < 38 then [1]
  else []

/-- A check that a successful instruction made of the record at `k`, and that
zeros do not pass. -/
inductive Residual (E : Env) (tag : UInt8) (s : Ledger) (k : Pubkey) : Prop
  | fresh (h : Vacant s k)
  | unexpired (off : ℕ) (h : E.clock < i64At (s k).data off)
  | signed (h : E.signed (keyAt (s k).data 0))
  | bearer (h : byteAt (s k).data bAuthMode = authBearer)
  | place (p : Place) (hk : p.At E.host k) (h : p.party = some (keyAt (s k).data 0))
  | mint (tokenProg : Pubkey) (ht : tag = 4) (slot : SlotIs E 6 tokenProg)
      (h : IsTokenProgram tokenProg → (s (keyAt (s k).data sWantMint)).owner = tokenProg)

theorem did_vacant {payer acct owner : Pubkey} {space : ℕ} {seeds : List Bytes} {as : List Act}
    (hs : SystemRules E.host) (hd : Did E (createAct E payer acct space owner seeds :: as) m m') :
    Vacant m.ledger acct := by
  obtain ⟨s,he,-⟩ := hd
  exact create_vacant hs he

/-- The mint that the vault of an offer was initialised for belongs to the token program. -/
theorem MadeOffer.mintOwner {k : OfferKeys} {bump vbump dec : UInt8} (hs : SystemRules E.host)
    (ht : TokenRules E.host) (hw : Wellformed E) (h : MadeOffer E d m m' k bump vbump dec)
    (hp : IsTokenProgram k.tokenProg) : (m.ledger k.wantMint).owner = k.tokenProg := by
  obtain ⟨s₁,h₁,s₂,h₂,s₃,h₃,-⟩ := h.did
  simp only [createAct, initAct, Act.effect, next_ledger] at h₁ h₂ h₃
  split at h₁
  · split at h₂
    · split at h₃
      · obtain ⟨-,-,hmint,hne,-⟩ := ht.init _ _ _ _ _ _ hp h₃
        obtain ⟨-,-,-,hrest⟩ := hs.create _ _ _ _ _ _ _ h₂
        obtain ⟨-,-,hnew,hrest'⟩ := hs.create _ _ _ _ _ _ _ h₁
        have hown : (s₁ k.wantMint).owner = k.tokenProg :=
          (hrest _ hne.symm).1.symm.trans hmint.1
        have hno : k.wantMint ≠ k.offer := by
          intro he
          rw [he, hnew] at hown
          have hown' : E.programId = k.tokenProg := hown
          exact hw.notToken (hown' ▸ hp)
        exact (hrest' _ hno).1.symm.trans hown
      · cases h₃
    · cases h₂
  · cases h₁

/-- The one record of an instruction that takes it in slot 1. -/
theorem residual_one {j : Pubkey} (hr : recordSlots tag = [1]) (hi : i ∈ recordSlots tag)
    (hk : SlotIs E i k) (hj : SlotIs E 1 j) (h : Residual E tag m.ledger j) :
    Residual E tag m.ledger k := by
  rw [hr, List.mem_singleton] at hi
  subst hi
  rw [SlotIs.inj hk hj]
  exact h

theorem cancel_slots (h : tag ∈ ([28,32,36] : List UInt8)) : recordSlots tag = [1] := by
  simp only [List.mem_cons, List.not_mem_nil, or_false] at h
  rcases h with rfl | rfl | rfl <;> decide

theorem expire_slots (h : tag ∈ ([29,33,37] : List UInt8)) : recordSlots tag = [1] := by
  simp only [List.mem_cons, List.not_mem_nil, or_false] at h
  rcases h with rfl | rfl | rfl <;> decide

theorem settle_slots (h : tag ∈ ([38,39,40] : List UInt8) ∨ tag ∈ ([41,42,43] : List UInt8)) :
    recordSlots tag = [] := by
  simp only [List.mem_cons, List.not_mem_nil, or_false] at h
  rcases h with (rfl | rfl | rfl) | rfl | rfl | rfl <;> decide

theorem PaidRecord.residual {k : RecordKeys} {p : Payment} (h : PaidRecord E d m m₁ k p) :
    Residual E tag m.ledger k.record := .unexpired sExpiry h.fillable.2.2.2.2.1

theorem Outcome.residual (hs : SystemRules E.host) (ht : TokenRules E.host) (hw : Wellformed E)
    (h : Outcome E d m m' tag) (hi : i ∈ recordSlots tag) (hk : SlotIs E i k) :
    Residual E tag m.ledger k := by
  cases h with
  | openedSwap _ _ _ _ h => exact residual_one rfl hi hk h.slot.slot (.fresh (did_vacant hs h.did))
  | filledSwap _ _ _ _ _ h => exact residual_one rfl hi hk h.slot h.residual
  | cancelledSwap _ _ _ _ _ hsg h => exact residual_one rfl hi hk h.slot (.signed (h.maker ▸ hsg))
  | expiredSwap _ _ hl _ h =>
    exact residual_one rfl hi hk h.slot
      (.place (.swap _ d) ⟨hl,_,h.address⟩ (congrArg some h.maker.symm))
  | madeOffer k _ _ _ h =>
    have hslot : ∀ (n : ℕ) (j : Pubkey), n < 7 →
        [k.offerer,k.offer,k.ovault,k.wantMint,k.swap,k.offererWant,k.tokenProg][n]? = some j →
        SlotIs E n j := by
      intro n j hn hj
      rw [← h.slots, List.getElem?_take_of_lt hn, List.getElem?_map] at hj
      exact hj
    have hi' : i = 1 ∨ i = 4 := by simpa [recordSlots] using hi
    rcases hi' with rfl | rfl
    · rw [SlotIs.inj hk (hslot 1 k.offer (by decide) rfl)]
      exact .fresh (did_vacant hs h.did)
    · rw [SlotIs.inj hk (hslot 4 k.swap (by decide) rfl)]
      refine .mint k.tokenProg rfl (hslot 6 _ (by decide) rfl) fun hp => ?_
      rw [h.wantMint]
      exact h.mintOwner hs ht hw hp
  | acceptedOffer k _ _ h =>
    have hslot : ∀ (n : ℕ) (j : Pubkey), (E.accounts.map AccountInfo.key)[n]? = some j →
        SlotIs E n j := by
      intro n j hj
      rwa [List.getElem?_map] at hj
    rw [h.slots] at hslot
    have hi' : i = 1 ∨ i = 3 := by simpa [recordSlots] using hi
    rcases hi' with rfl | rfl
    · rw [SlotIs.inj hk (hslot 1 k.swap rfl)]
      exact .unexpired sExpiry h.swapLive
    · rw [SlotIs.inj hk (hslot 3 k.offer rfl)]
      exact .unexpired oExpiry h.offerLive
  | withdrawnOffer _ _ _ hsg h =>
    exact residual_one rfl hi hk h.offerSlot (.signed (h.offerer ▸ hsg))
  | expiredOffer _ _ hl _ h =>
    obtain ⟨b,ha⟩ := h.address
    exact residual_one rfl hi hk h.offerSlot (.place (.offer _ d) (.of_find hl ha)
      (congrArg some h.offerer.symm))
  | initedConfig _ _ _ _ _ => exact (List.not_mem_nil hi).elim
  | updatedConfig _ _ _ _ => exact (List.not_mem_nil hi).elim
  | initedFeeVault _ _ _ => exact (List.not_mem_nil hi).elim
  | sweptFees _ _ _ _ => exact (List.not_mem_nil hi).elim
  | openedBasket _ _ _ _ _ _ h =>
    exact residual_one rfl hi hk h.slot (.fresh (did_vacant hs h.did))
  | filledBasket _ _ _ _ _ _ h =>
    exact residual_one rfl hi hk h.swapSlot (.unexpired bExpiry h.live)
  | claimedBasket _ _ _ _ _ h =>
    have hi' : i = 2 := by simpa [recordSlots] using hi
    subst hi'
    rw [SlotIs.inj hk h.swapSlot]
    exact .bearer h.mode
  | rewrapped _ _ h => exact residual_one rfl hi hk h.swapSlot (.bearer h.mode)
  | cancelledBasket _ _ _ _ _ _ h =>
    exact residual_one rfl hi hk h.swapSlot (.signed (h.makerIs ▸ h.signed))
  | expiredBasket _ _ _ _ h =>
    exact residual_one rfl hi hk h.swapSlot
      (.place (.basket _ d) ⟨h.length,_,h.isBasket.address⟩ rfl)
  | openedPnft _ _ _ h => exact residual_one rfl hi hk h.slot.slot (.fresh (did_vacant hs h.did))
  | filledPnft _ _ _ _ _ _ h => exact residual_one rfl hi hk h.slot h.residual
  | cancelledPnft _ _ _ _ _ h => exact residual_one rfl hi hk h.slot (.signed (h.maker ▸ h.signed))
  | expiredPnft _ _ _ _ h =>
    exact residual_one rfl hi hk h.slot (.place (.swap _ d) ⟨h.length,_,h.address⟩
      (congrArg some h.maker.symm))
  | openedCore _ _ _ h => exact residual_one rfl hi hk h.slot.slot (.fresh (did_vacant hs h.did))
  | filledCore _ _ _ _ h => exact residual_one rfl hi hk h.slot h.residual
  | cancelledCore _ _ _ _ h => exact residual_one rfl hi hk h.slot (.signed (h.maker ▸ h.signed))
  | expiredCore _ _ _ h =>
    exact residual_one rfl hi hk h.slot (.place (.swap _ d) ⟨h.length,_,h.address⟩
      (congrArg some h.maker.symm))
  | listedToken _ _ _ _ _ _ h =>
    exact residual_one rfl hi hk h.slot.slot (.fresh (did_vacant hs h.did))
  | filledToken _ _ _ _ _ _ _ h => exact residual_one rfl hi hk h.slot h.residual
  | cancelledListing _ htag _ _ _ h =>
    exact residual_one (cancel_slots htag) hi hk h.slot (.signed (h.recorded ▸ h.signed))
  | expiredListing _ htag _ _ h =>
    obtain ⟨b,ha⟩ := h.address
    exact residual_one (expire_slots htag) hi hk h.slot
      (.place (.listing _ d) (.of_find h.length ha) (congrArg some h.recorded.symm))
  | listedPnft _ _ _ _ _ _ h =>
    exact residual_one rfl hi hk h.slot.slot (.fresh (did_vacant hs h.did))
  | filledNft _ _ _ _ _ _ h => exact residual_one rfl hi hk h.slot h.residual
  | listedCore _ _ _ _ _ _ h =>
    exact residual_one rfl hi hk h.slot.slot (.fresh (did_vacant hs h.did))
  | filledListingCore _ _ _ _ h => exact residual_one rfl hi hk h.slot h.residual
  | sold _ htag _ =>
    rw [settle_slots (.inl htag)] at hi
    cases hi
  | bought _ htag _ =>
    rw [settle_slots (.inr htag)] at hi
    cases hi

/-! ## Wiped records -/

theorem slice_replicate (n off len : ℕ) : ∃ j, slice (zeros n) off len = zeros j := by
  simp only [slice, zeros, List.drop_replicate, List.take_replicate]
  exact ⟨_,rfl⟩

theorem i64At_zeros (n off : ℕ) : i64At (zeros n) off = 0 := by
  obtain ⟨j,hj⟩ := slice_replicate n off 8
  rw [i64At, hj, intLe, natLe_zeros]
  simp

/-- What the caller of `make_offer` supplies is genuine: the token program, and
the system program behind the all-zero key. -/
def GenuineOffer (E : Env) (tag : UInt8) (s : Ledger) : Prop :=
  tag = 4 → (∀ tokenProg, SlotIs E 6 tokenProg → IsTokenProgram tokenProg) ∧
    ¬IsTokenProgram (s zeroKey).owner

/-- Zeros pass none of the checks. -/
theorem Residual.refutes {s : Ledger} (hsys : E.programId ≠ systemId) (hz : ¬E.signed zeroKey)
    (hclock : 0 < E.clock) (hgenuine : GenuineOffer E tag s)
    (hslot : ∀ p : Place, p.party.isSome → p.At E.host k → Slot E.host p (s k))
    (hwiped : Wiped E.host (s k)) (h : Residual E tag s k) : False := by
  obtain ⟨ho,hd⟩ := hwiped
  cases h with
  | fresh hv => exact hsys (ho.symm.trans hv.1)
  | unexpired off hx =>
    rw [hd, i64At_zeros] at hx
    omega
  | signed hs =>
    rw [hd, keyAt_zeros] at hs
    exact hz hs
  | bearer hb =>
    rw [hd, byteAt_zeros] at hb
    exact absurd hb (by decide)
  | place p hk hp =>
    -- a wiped account is at the place of another party than the one it names
    rw [hd, keyAt_zeros] at hp
    cases hslot p (by rw [hp]; rfl) hk with
    | vacant hso _ => exact hsys (ho.symm.trans hso)
    | closed _ _ hpz => exact hpz hp
    | live _ _ _ hpz => exact hpz hp
  | mint tokenProg ht hslot hm =>
    obtain ⟨htok,hnot⟩ := hgenuine ht
    have hp := htok _ hslot
    rw [hd, keyAt_zeros] at hm
    exact hnot (hm hp ▸ hp)

/-- A wiped record is refused by every instruction that takes it, and over a run
every record that was opened is closed at most once. -/
theorem closed_record_unusable {s₀ : Ledger} (hs : SystemRules H) (ht : TokenRules H)
    (hf : Confined H) (hc : H.CollisionFree) (hsys : H.programId ≠ systemId) (hg : Genesis H s₀) :
    (∀ s, Run H Keyed s₀ s → ∀ (c : Call) tag d, c.On H → c.data = tag :: d →
      ¬c.env.signed zeroKey → 0 < c.env.clock → GenuineOffer c.env tag s →
      ∀ i ∈ recordSlots tag, ∀ k, SlotIs c.env i k → Wiped H (s k) → c.result s = none) ∧
    ∀ log s, LoggedRun H Keyed log s₀ s → ∀ (p : Place) k, p.party.isSome → p.At H k →
      openings k log = closings k log+liveCount H (s k) := by
  constructor
  · intro s hrun c tag d ho hdata hz hclock hgen i hi k hk hwiped
    cases hr : c.result s with
    | none => rfl
    | some m =>
      obtain ⟨tag',d',hd',hh⟩ := Call.handled hr
      rw [hdata] at hd'
      cases hd'
      obtain ⟨rfl,hw⟩ := ho
      have hres := (wp_ok (handler_outcome hs hw hf) hh).residual hs ht hw hi hk
      exact (hres.refutes hsys hz hclock hgen
        (fun p hp hkp => run_slot hs hf hc hsys hg hrun hp hkp) hwiped).elim
  · exact fun log s hrun p k hp hk => run_count hs hf hc hsys hg hrun hp hk

section
open Xete.Market Xete.Reference

theorem genesis_of {table : Table} {s : Ledger} (hc : (host programKey table).CollisionFree)
    (hconfig : Place.config.At (host programKey table) configKey)
    (h : ∀ e ∈ table, e.2.1 = programKey → e.2.2 ≠ configKey → Vacant s e.2.2) :
    Genesis (host programKey table) s := by
  intro p k hp hk
  have hne : k ≠ configKey := hk.ne hc hconfig hp
  obtain ⟨-,b,hb⟩ := hk
  simp only [Host.createProgramAddress, host, deriveIn, Option.map_eq_some_iff] at hb
  obtain ⟨e,he,rfl⟩ := hb
  have hmem := List.mem_of_find?_eq_some he
  have heq := List.find?_some he
  exact h e hmem (by simpa using (of_decide_eq_true heq).2) hne

theorem start_genesis : Genesis market start :=
  genesis_of market_collisionFree ⟨trivial,255,by decide⟩ (by decide)

def expireWipedCall : Call where
  env := sees 2000 taker [swapKey,vaultKey,systemId,systemId,makerA,splTokenId]
  data := 3 :: nonce

theorem keyed_of {c : Call} {s s' : Ledger} (h : ¬c.env.signed zeroKey) : Keyed (.call c) s s' := by
  intro c' hc
  cases hc
  exact h

/-- A swap that is cancelled and expired in one transaction. -/
theorem closed_record_unusable_cancelled :
    ∃ m₁ m₂ : Machine, (openSwapCall 100 50).result start = some m₁ ∧
    cancelSwapCall.result m₁.ledger = some m₂ ∧ Wiped market (m₂.ledger swapKey) ∧
    expireWipedCall.result m₂.ledger = none ∧
    ∀ log, LoggedRun market Keyed log start m₂.ledger →
      openings swapKey log = closings swapKey log+liveCount market (m₂.ledger swapKey) := by
  have h : (((openSwapCall 100 50).result start).any fun m₁ =>
      (cancelSwapCall.result m₁.ledger).any fun m₂ =>
        decide ((m₂.ledger swapKey).owner = programKey) &&
        decide ((m₂.ledger swapKey).data = zeros swapLen)) = true := by
    decide +kernel
  simp only [Option.any_eq_true, Bool.and_eq_true, decide_eq_true_eq] at h
  obtain ⟨m₁,h₁,m₂,h₂,ho,hd⟩ := h
  have hwiped : Wiped market (m₂.ledger swapKey) := ⟨ho,by rw [hd, zeros_length]⟩
  have hrun : Run market Keyed start m₂.ledger :=
    (Relation.ReflTransGen.single ⟨_,.call _ _ _ (sees_on _ _ _ _ (by decide)) h₁,
      keyed_of (by decide)⟩).tail
      ⟨_,.call _ _ _ (sees_on _ _ _ _ (by decide)) h₂,keyed_of (by decide)⟩
  obtain ⟨hrefused,hcount⟩ := closed_record_unusable market_systemRules market_tokenRules
    market_confined market_collisionFree market_apart.notSystem start_genesis
  refine ⟨m₁,m₂,h₁,h₂,hwiped,?_,?_⟩
  · exact hrefused _ hrun expireWipedCall 3 nonce (sees_on _ _ _ _ (by decide)) rfl (by decide)
      (by decide) (fun h => absurd h (by decide)) 1 (by decide) swapKey rfl hwiped
  · exact fun log hlog => hcount log _ hlog (.swap maker nonce) swapKey rfl ⟨rfl,255,by decide⟩

end

end Xete.Swap
