import XetePrograms.Library.Episode
import XetePrograms.Swap.BasketForm
import XetePrograms.Swap.FamilyRun

/-!
# Where a record comes from

A live record of a reachable state was opened by one call, which its party
signed. Since then nothing has signed for its address or changed its terms, so
what that call put in custody is still there.
-/

set_option autoImplicit false

namespace Xete.Swap
open Xete.Octets Xete.Weakest Xete.Chain Xete.Token Xete.Runtime Xete.Rules Xete.Runs

variable {H : Host} {E : Env} {ok : Action → Ledger → Ledger → Prop} {p : Place} {r : Pubkey}
  {m m' : Machine} {s s' s₀ : Ledger} {a : Action} {d : Bytes} {tag : UInt8}

/-! ## A step between two live states -/

def Place.SameRecord : Place → Bytes → Bytes → Prop
  | .basket .., b, b' => SameTerms b b'
  | _, b, b' => b' = b

theorem Place.SameRecord.refl (p : Place) (b : Bytes) : p.SameRecord b b := by
  cases p with
  | basket => exact SameTerms.refl b
  | _ => rfl

theorem Place.SameRecord.trans {b b' b'' : Bytes} (h : p.SameRecord b b')
    (h' : p.SameRecord b' b'') :
    p.SameRecord b b'' := by
  cases p with
  | basket => exact SameTerms.trans h h'
  | _ => exact Eq.trans h' h

structure Stays (H : Host) (p : Place) (r : Pubkey) (a : Action) (s s' : Ledger) : Prop where
  held : NoSeizure H → Unseized H a s s' →
    a = .reap ∧ s' = reap s ∨ ∃ signed, Holdings H signed s s' ∧ ¬signed r
  same : p.SameRecord (s r).data (s' r).data

theorem RecordEnd.stays {as : List Act} (hs : SystemRules E.host) (hw : Wellformed E)
    (hc : E.host.CollisionFree) (hk : p.At E.host r) (hd : Did E as m m')
    (hl : Live E.host (m.ledger r)) (hl' : Live E.host (m'.ledger r))
    (he : RecordEnd E d as m m' r) :
    Stays E.host p r a m.ledger m'.ledger := by
  cases he with
  | opened q party payer space seeds rest b hq hp hsign hfirst hnever hb hst _ =>
    subst hfirst
    obtain ⟨s₁,he,-⟩ := hd
    have hv := create_vacant hs he
    exact (hw.notSystem (hl.1.symm.trans hv.1)).elim
  | closed q hq ho hp honce hst =>
    have hz : (m'.ledger r).data = zeros (m'.ledger r).data.length := by
      rw [hst.2, zeros_length]
    exact (hl'.2 hz).elim
  | rekeyed maker bearer nonce hq hmk hnever hr =>
    obtain rfl := hq.inj hc hk
    obtain ⟨s₁,he,hm'⟩ := hr.did
    have hst : Stores E r (patch (m.ledger r).data bClaimAuth (slice d 32 32)) m' := by
      rw [hm']
      exact effect_write_stores he
    refine ⟨fun hno _ => .inr ⟨_,ran_holdings hw hno _ hr.did.ran,signsIn_write _ _ _⟩,?_⟩
    show SameTerms _ _
    rw [hst.2]
    exact sameTerms_rekey hr.size (slice_length _ _ _ (by have := hr.length; omega))

/-- A record that is live before a step and after it was kept. -/
theorem Step.stays (hs : SystemRules H) (hf : Confined H) (hc : H.CollisionFree)
    (hp : p.party.isSome) (hk : p.At H r) (hstep : Step H a s s') (hl : Live H (s r))
    (hl' : Live H (s' r)) :
    Stays H p r a s s' := by
  have hquiet : ∀ {signed touched : Pubkey → Prop}, Frame H signed touched s s' →
      (NoSeizure H → Unseized H a s s' → Holdings H signed s s') → ¬signed r → ¬touched r →
      Stays H p r a s s' := by
    intro signed touched hfr hh hns hnt
    obtain ⟨-,hd,-⟩ := hfr.owned r hl.1 hnt
    exact ⟨fun hno hun => .inr ⟨signed,hh hno hun,hns⟩,by rw [hd]; exact .refl p _⟩
  cases hstep with
  | call c _ m ho hr =>
    obtain ⟨tag,d,-,hout⟩ := Call.outcome hs hf ho hr
    obtain ⟨rfl,hw⟩ := ho
    obtain ⟨as,K,hd,hn,hK⟩ := hout.ends hw hf hc rfl
    by_cases hKr : K r
    · exact (hK r hKr).stays hs hw hc hk hd hl hl'
    · have hparty : ¬∃ q : Place, q.party = none ∧ q.At c.env.host r := by
        rintro ⟨q,hq,hqr⟩
        rw [← hqr.inj hc hk, hq] at hp
        cases hp
      exact hquiet (ran_frame hw hf as hd.ran) (fun hno _ => ran_holdings hw hno as hd.ran)
        (fun hj => (hn.signs r hj).elim hKr hparty) fun hj => (hn.changes r hj).elim hKr hparty
  | outside _ _ hfr => exact hquiet hfr (fun _ hun => hun rfl) id id
  | reap =>
    refine ⟨fun _ _ => .inl ⟨rfl,rfl⟩,?_⟩
    have hne : (s r).lamports ≠ 0 := by
      intro hz
      apply hl'.2
      rw [reap_dead hz]
      rfl
    rw [reap_live (Nat.pos_of_ne_zero hne)]
    exact .refl p _

/-! ## The opening -/

structure OpenedBy (H : Host) (ok : Action → Ledger → Ledger → Prop) (p : Place) (r : Pubkey)
    (s₀ s : Ledger) (c : Call) (s₁ : Ledger) (m : Machine) : Prop where
  on : c.On H
  slot : Slot H p (s₁ r)
  meets : ok (.call c) s₁ m.ledger
  result : c.result s₁ = some m
  episode : Episode (fun s s' => ∃ a, Step H a s s' ∧ ok a s s') (fun s => Live H (s r)) s₀ s₁
    m.ledger s

theorem Slot.owned_or_vacant {r : Pubkey} (h : Slot H p (s r)) :
    (s r).owner = H.programId ∨ Vacant s r := by
  cases h with
  | vacant ho hd => exact .inr ⟨ho,hd⟩
  | closed ho _ _ => exact .inl ho
  | live ho _ _ _ => exact .inl ho

/-- A record that begins with its party is live. -/
theorem Slot.live_of_party {b : Account} (h : Slot H p b) (hsys : H.programId ≠ systemId)
    (ho : b.owner = H.programId) (hp : p.party = some (keyAt b.data 0)) : Live H b := by
  cases h with
  | vacant hso _ => exact (hsys (ho.symm.trans hso)).elim
  | closed _ hd hz =>
    rw [hd, keyAt_zeros] at hp
    exact (hz hp).elim
  | live _ hh _ hz => exact hh.isLive ho hz

/-- Nothing comes to life that is neither signed for nor touched. -/
theorem frame_not_live {signed touched : Pubkey → Prop} (hsys : H.programId ≠ systemId)
    (hf : Frame H signed touched s s') (hk : p.At H r) (hslot : Slot H p (s r)) (hl : ¬Live H (s r))
    (hs : ¬signed r) (ht : ¬touched r) : ¬Live H (s' r) := by
  intro hl'
  rcases hslot.owned_or_vacant with ho | hv
  · obtain ⟨-,hd',-⟩ := hf.owned r ho ht
    exact hl ⟨ho,by rw [← hd']; exact hl'.2⟩
  · have hv' := hf.vacant r hk.isPda hs hv
    exact hsys (hl'.1.symm.trans hv'.1)

/-- Only a call brings a record to life. -/
theorem Step.opens (hsys : H.programId ≠ systemId) (hk : p.At H r) (hslot : Slot H p (s r))
    (hstep : Step H a s s') (hl : ¬Live H (s r)) (hl' : Live H (s' r)) :
    ∃ c m, a = .call c ∧ c.On H ∧ c.result s = some m ∧ m.ledger = s' := by
  cases hstep with
  | call c _ m ho hr => exact ⟨c,m,rfl,ho,hr,rfl⟩
  | outside _ _ hfr => exact (frame_not_live hsys hfr hk hslot hl id id hl').elim
  | reap =>
    by_cases hz : (s r).lamports = 0
    · rw [reap_dead hz] at hl'
      exact (hsys hl'.1.symm).elim
    · rw [reap_live (Nat.pos_of_ne_zero hz)] at hl'
      exact (hl hl').elim

/-- A live record of a reachable state has an opening. -/
theorem exists_opening (hs : SystemRules H) (hf : Confined H) (hc : H.CollisionFree)
    (hsys : H.programId ≠ systemId) (hg : Genesis H s₀)
    (hkeyed : ∀ a s s', ok a s s' → Keyed a s s') (hrun : Run H ok s₀ s) (hp : p.party.isSome)
    (hk : p.At H r) (hl : Live H (s r)) :
    ∃ c s₁ m, OpenedBy H ok p r s₀ s c s₁ m := by
  have hdead : ¬Live H (s₀ r) := fun h => hsys (h.1.symm.trans (hg.vacant hp hk).1)
  obtain ⟨s₁,s₂,he⟩ := exists_episode (P := fun s => Live H (s r)) hrun hdead hl
  obtain ⟨a,hstep,hok⟩ := he.entry
  have hrun₁ : Run H Keyed s₀ s₁ :=
    Relation.ReflTransGen.mono (fun u v ⟨a,h,ho⟩ => ⟨a,h,hkeyed a u v ho⟩) _ _ he.before
  have hslot := run_slot hs hf hc hsys hg hrun₁ hp hk
  obtain ⟨c,m,rfl,ho,hr,rfl⟩ := hstep.opens hsys hk hslot he.outside he.inside
  exact ⟨c,s₁,m,ho,hslot,hok,hr,he⟩

variable {c : Call} {s₁ : Ledger}

/-- What the opening establishes, and steps that do not sign for the record and
removals of empty accounts keep, holds as long as the record lives. -/
theorem OpenedBy.keeps {Q : Ledger → Prop} (hs : SystemRules H) (hf : Confined H)
    (hno : NoSeizure H) (hc : H.CollisionFree) (hp : p.party.isSome) (hk : p.At H r)
    (h : OpenedBy H ok p r s₀ s c s₁ m) (hun : ∀ a s s', ok a s s' → Unseized H a s s')
    (hm : Q m.ledger)
    (hheld : ∀ {signed s s'}, Holdings H signed s s' → ¬signed r → Q s → Q s')
    (hreap : ∀ s, ok .reap s (reap s) → Q s → Q (reap s)) : Q s := by
  apply h.episode.invariant hm
  rintro u v ⟨⟨a,hstep,hok⟩,hu,hv⟩ hq
  rcases (hstep.stays hs hf hc hp hk hu hv).held hno (hun a u v hok) with
    ⟨rfl,rfl⟩ | ⟨signed,hh,hn⟩
  · exact hreap u hok hq
  · exact hheld hh hn hq

/-- The record has the terms that the opening gave it. -/
theorem OpenedBy.same (hs : SystemRules H) (hf : Confined H) (hc : H.CollisionFree)
    (hp : p.party.isSome) (hk : p.At H r) (h : OpenedBy H ok p r s₀ s c s₁ m) :
    p.SameRecord (m.ledger r).data (s r).data := by
  refine h.episode.invariant (Q := fun s => p.SameRecord (m.ledger r).data (s r).data)
    (.refl p _) ?_
  rintro u v ⟨⟨a,hstep,-⟩,hu,hv⟩ hq
  exact hq.trans (hstep.stays hs hf hc hp hk hu hv).same

/-- The opening signs for the record or writes it. -/
theorem OpenedBy.uses (hs : SystemRules H) (hf : Confined H) (hk : p.At H r)
    (h : OpenedBy H ok p r s₀ s c s₁ m) : Uses c.env (m.trace.map Event.act) r := by
  obtain ⟨tag,d,-,hout⟩ := Call.outcome hs hf h.on h.result
  obtain ⟨as,hd,-⟩ := hout.within
  rw [did_trace _ _ _ hd, List.map_nil, List.nil_append]
  obtain ⟨rfl,hw⟩ := h.on
  by_contra hu
  have hfr := ran_frame hw hf as hd.ran
  exact frame_not_live hw.notSystem hfr hk h.slot h.episode.outside (fun hj => hu (.inl hj))
    (fun hj => hu (.inr hj)) h.episode.inside

/-! ## What the opening put in custody -/

structure Escrowed (H : Host) (p q : Place) (bump : ℕ) (due : Bytes → Option (Pubkey × ℕ))
    (r : Pubkey) (s : Ledger) : Prop where
  address : H.findProgramAddress p.seeds H.programId = some (r,byteAt (s r).data bump)
  stocked : ∀ mint n, due (s r).data = some (mint,n) →
    ∃ v b, H.findProgramAddress q.seeds H.programId = some (v,b) ∧ Stocked s v mint r n

theorem OpenedBy.escrowed {q : Place} {bump : ℕ} {due : Bytes → Option (Pubkey × ℕ)}
    (hs : SystemRules H) (hf : Confined H) (hno : NoSeizure H) (hc : H.CollisionFree)
    (hp : p.party.isSome) (hk : p.At H r) (h : OpenedBy H ok p r s₀ s c s₁ m)
    (hun : ∀ a s s', ok a s s' → Unseized H a s s') (hrent : ∀ s s', ok .reap s s' → RentExempt s)
    (hread : ∀ b, p.SameRecord (m.ledger r).data b → due b = due (m.ledger r).data ∧
      byteAt b bump = byteAt (m.ledger r).data bump)
    (hm : Escrowed H p q bump due r m.ledger) : Escrowed H p q bump due r s := by
  obtain ⟨hdue,hbump⟩ := hread _ (h.same hs hf hc hp hk)
  constructor
  · rw [hbump]
    exact hm.address
  · intro mint n hn
    obtain ⟨v,b,hv,hst⟩ := hm.stocked mint n (hdue ▸ hn)
    refine ⟨v,b,hv,h.keeps (Q := fun s => Stocked s v mint r n) hs hf hno hc hp hk hun hst ?_ ?_⟩
    · intro signed u w hh hnr hq
      exact hq.frame hh hk.isPda hnr
    · intro u hok hq
      exact hq.reap (hrent u _ hok)

/-- A created vault, initialised and credited, is stocked. -/
theorem escrow_stocks {payer v owner p src mint auth : Pubkey} {n space : ℕ} {dec : UInt8}
    {seeds : List Bytes} {sig : Option (List Bytes)} (hs : SystemRules E.host)
    (ht : TokenRules E.host) (hp : IsTokenProgram p) (hn : n ≠ 0)
    (hd : Did E [createAct E payer v space owner seeds, initAct p v mint r,
      transferAct p src mint v auth n dec sig] m m') :
    Stocked m'.ledger v mint r n := by
  obtain ⟨-,t,hat,hm,hauth,hamt,hsl⟩ := escrow_funds hs ht hp hd
  obtain ⟨s₁,-,s₂,h₂,s₃,h₃,rfl⟩ := hd
  have hmoved := transferAct_transferred ht hp h₃
  obtain ⟨hprog,-,-,-,-,hsame,-⟩ := ht.init _ _ _ _ _ _ hp (effect_invoke _ _ _ _ h₂)
  have hown : (s₃ v).owner = p := by
    rw [hmoved.owners v, next_ledger, (hsame v).1]
    exact hprog
  refine ⟨Nat.pos_of_ne_zero hn,t,hat,hm,hauth,hamt,hsl,?_⟩
  rw [(tokenAt_some _ _ _ hat).2.2.1, next_ledger, hown]
  exact hmoved.isMint

/-! ## Offers -/

theorem MadeOffer.escrowed {k : OfferKeys} {bump vbump dec : UInt8} (hs : SystemRules E.host)
    (ht : TokenRules E.host) (hw : Wellformed E) (hno : NoSeizure E.host)
    (h : MadeOffer E d m m' k bump vbump dec)
    (hg : GenuineTokens (makeOfferActs E k (m.ledger k.swap).data d bump vbump dec)) :
    Escrowed E.host (.offer k.offerer (slice d 0 32)) (.ovault k.offerer (slice d 0 32)) oBump
      offerDue k.offer m'.ledger := by
  have hn : (slice d 0 32).length = 32 := slice_length _ _ _ (by have := h.length; omega)
  have hat : (Place.offer k.offerer (slice d 0 32)).At E.host k.offer := .of_find hn h.address
  have hinit : initAct k.tokenProg k.ovault k.wantMint k.offer ∈
      makeOfferActs E k (m.ledger k.swap).data d bump vbump dec := by simp [makeOfferActs]
  have hv := offerRecord_view k (m.ledger k.swap).data d bump h.length
  simp only [offerView, offeredTerms, OfferView.mk.injEq] at hv
  obtain ⟨-,-,hmint,hamt,-,-,-,-,hbump,-⟩ := hv
  have hst := h.stores
  constructor
  · rw [hst.2, hbump]
    exact h.address
  · intro mint n hdue
    rw [offerDue, hst.2, hmint, hamt, Option.some_inj, Prod.mk.injEq] at hdue
    obtain ⟨rfl,rfl⟩ := hdue
    obtain ⟨s₁,h₁,s₂,h₂,s₃,h₃,s₄,h₄,s₅,h₅,rfl⟩ := h.did
    have hstock : Stocked s₄ k.ovault k.wantMint k.offer (u64At d 32) :=
      escrow_stocks hs ht (hg.inits hinit) h.positive ⟨s₂,h₂,s₃,h₃,s₄,h₄,rfl⟩
    exact ⟨k.ovault,vbump,h.vault,
      hstock.frame (effect_holdings hw hno _ h₅) hat.isPda (signsIn_write _ _ _)⟩

section
variable {offerer maker : Pubkey} {nonce : Bytes}

/-- A live offer was opened by a bid of its offerer. -/
theorem OpenedBy.offer (hs : SystemRules H) (hf : Confined H) (hc : H.CollisionFree)
    (hsys : H.programId ≠ systemId) (hk : (Place.offer offerer nonce).At H r)
    (h : OpenedBy H ok (.offer offerer nonce) r s₀ s c s₁ m) :
    ∃ d k bump vbump dec, c.data = 4 :: d ∧
      MadeOffer c.env d ⟨s₁,[]⟩ m k bump vbump dec ∧ k.offer = r ∧ k.offerer = offerer ∧
        slice d 0 32 = nonce := by
  have hu := h.uses hs hf hk
  obtain ⟨tag,d,hd,hout⟩ := Call.outcome hs hf h.on h.result
  obtain ⟨rfl,hw⟩ := h.on
  have htag := hout.offer_tag hc rfl hk hu
  -- an offer that is accepted or refunded was live before
  have hdead : ∀ {o : Pubkey} {n : Bytes}, IsOffer c.env s₁ r → (Place.offer o n).At c.env.host r →
      keyAt (s₁ r).data oOfferer ≠ o := by
    rintro o n hoff hat rfl
    obtain ⟨rfl,rfl⟩ := Place.offer.inj (hat.inj hc hk)
    exact h.episode.outside (h.slot.live_of_party hsys hoff.owner rfl)
  cases hout with
  | madeOffer k bump vbump dec h' =>
    rw [did_trace _ _ _ h'.did, List.map_nil, List.nil_append] at hu
    obtain rfl := h'.uses hc hk hu
    have hat : (Place.offer k.offerer (slice d 0 32)).At c.env.host k.offer :=
      .of_find (slice_length _ _ _ (by have := h'.length; omega)) h'.address
    obtain ⟨rfl,rfl⟩ := Place.offer.inj (hk.inj hc hat)
    exact ⟨d,k,bump,vbump,dec,hd,h',rfl,rfl,rfl⟩
  | acceptedOffer k _ _ h' =>
    rw [did_trace _ _ _ h'.did, List.map_nil, List.nil_append] at hu
    obtain rfl := h'.uses hw hc hk hu
    have hat : (Place.offer k.offerer (slice d 32 32)).At c.env.host k.offer :=
      ⟨slice_length _ _ _ (by have := h'.length; omega),_,(h'.signers hw).2⟩
    exact (hdead h'.isOffer hat h'.offerer).elim
  | withdrawnOffer k _ hl _ h' =>
    rw [did_trace _ _ _ h'.did, List.map_nil, List.nil_append] at hu
    obtain rfl := h'.uses hw hl hu
    exact (hdead h'.isOffer ⟨hl,_,h'.signer hw hl⟩ h'.offerer).elim
  | expiredOffer k _ hl _ h' =>
    rw [did_trace _ _ _ h'.did, List.map_nil, List.nil_append] at hu
    obtain rfl := h'.uses hw hl hu
    exact (hdead h'.isOffer ⟨hl,_,h'.signer hw hl⟩ h'.offerer).elim
  | cancelledListing _ ht _ _ _ _ => exact (tags_apart htag ht rfl).elim
  | expiredListing _ ht _ _ _ => exact (tags_apart htag ht rfl).elim
  | sold _ ht _ => exact (tags_apart htag ht rfl).elim
  | bought _ ht _ => exact (tags_apart htag ht rfl).elim
  | _ => exact absurd htag (by decide)

/-- In every reachable state the vault of a live offer holds the bid. -/
theorem offer_escrowed (hs : SystemRules H) (ht : TokenRules H) (hf : Confined H)
    (hno : NoSeizure H) (hc : H.CollisionFree) (hsys : H.programId ≠ systemId) (hg : Genesis H s₀)
    (hrun : Run H (Assumed H) s₀ s) (hk : (Place.offer offerer nonce).At H r) (hl : Live H (s r)) :
    Escrowed H (.offer offerer nonce) (.ovault offerer nonce) oBump offerDue r s := by
  obtain ⟨c,s₁,m,h⟩ := exists_opening hs hf hc hsys hg (fun a s s' ha => ha.solid.1) hrun rfl hk hl
  refine h.escrowed hs hf hno hc rfl hk (fun a s s' ha => ha.solid.2.2) (fun s s' ha => ha.rent rfl)
    ?_ ?_
  · rintro b rfl
    exact ⟨rfl,rfl⟩
  · obtain ⟨d,k,bump,vbump,dec,-,hmade,rfl,rfl,rfl⟩ := h.offer hs hf hc hsys hk
    have hgen := h.meets.solid.2.1
    simp only [Action.acts, h.result] at hgen
    rw [did_trace _ _ _ hmade.did, List.map_nil, List.nil_append] at hgen
    obtain ⟨rfl,hw⟩ := h.on
    exact hmade.escrowed hs ht hw hno hgen

/-! ## Swaps -/

theorem did_write_stores {k : Pubkey} {b : Bytes} (as : List Act)
    (h : Did E (as ++ [.write k b]) m m') : Stores E k b m' := by
  obtain ⟨m₁,-,s₂,h₂,rfl⟩ := (did_append _ _ m m').mp h
  exact effect_write_stores h₂

def swapDue (b : Bytes) : Option (Pubkey × ℕ) := some (keyAt b sGiveMint,u64At b sGiveAmt)

theorem OpenedSwap.escrowed {k : SwapKeys} {bump vbump dec : UInt8} (hs : SystemRules E.host)
    (ht : TokenRules E.host) (hw : Wellformed E) (hno : NoSeizure E.host)
    (h : OpenedSwap E d m m' k bump vbump dec) :
    Escrowed E.host (.swap k.maker (slice d 0 32)) (.vault k.maker (slice d 0 32)) sBump swapDue
      k.swap m'.ledger := by
  have hl : 120 ≤ d.length := by rw [h.slot.length]
  have hv : swapView (swapRecord k.maker k.giveMint (u64At d 32) k.wantMint d bump) = _ :=
    swapRecord_view hl (u64At_le d 32)
  simp only [swapView, postedTerms, SwapView.mk.injEq] at hv
  obtain ⟨-,hmint,hamt,-,-,-,-,-,-,hbump,-⟩ := hv
  have hst := did_write_stores [_,_,_,_,_] h.did
  constructor
  · rw [hst.2, hbump]
    exact h.slot.address
  · intro mint n hdue
    rw [swapDue, hst.2, hmint, hamt, Option.some_inj, Prod.mk.injEq] at hdue
    obtain ⟨rfl,rfl⟩ := hdue
    obtain ⟨s₁,h₁,s₂,h₂,s₃,h₃,s₄,h₄,s₅,h₅,s₆,h₆,rfl⟩ := h.did
    have hstock : Stocked s₅ k.vault k.giveMint k.swap (u64At d 32) :=
      escrow_stocks hs ht h.tokenProg h.positive ⟨s₃,h₃,s₄,h₄,s₅,h₅,rfl⟩
    exact ⟨k.vault,vbump,h.vault,
      hstock.frame (effect_holdings hw hno _ h₆) h.slot.at.isPda (signsIn_write _ _ _)⟩

/-- The record that `open_swap` opened. -/
theorem OpenedBy.swap (hs : SystemRules H) (hf : Confined H) (hc : H.CollisionFree)
    (hk : (Place.swap maker nonce).At H r) (h : OpenedBy H ok (.swap maker nonce) r s₀ s c s₁ m)
    (hd : c.data = 0 :: d) : ∃ k bump vbump dec, OpenedSwap c.env d ⟨s₁,[]⟩ m k bump vbump dec ∧
      k.swap = r ∧ k.maker = maker ∧ slice d 0 32 = nonce := by
  have hu := h.uses hs hf hk
  obtain ⟨tag,e,he,hout⟩ := Call.outcome hs hf h.on h.result
  rw [hd] at he
  cases he
  obtain ⟨rfl,hw⟩ := h.on
  generalize htag : (0 : UInt8) = t at hout
  cases hout with
  | openedSwap k bump vbump dec h' =>
    have hrec : r = k.swap := by
      rw [did_trace _ _ _ h'.did, List.map_nil, List.nil_append] at hu
      rcases hu with hj | hj
      · simp [openSwapActs, createAct, initAct, transferAct] at hj
        rcases hj with hj | hj
        · exact address_unique hj (c.env.host.find_create _ _ _ _ h'.slot.address)
        · have hat : (Place.vault k.maker (slice d 0 32)).At c.env.host r :=
            ⟨h'.slot.nonce_length,_,hj⟩
          cases hat.inj hc hk
      · simpa [openSwapActs, createAct, initAct, transferAct] using hj
    subst hrec
    obtain ⟨rfl,rfl⟩ := Place.swap.inj (h'.slot.at.inj hc hk)
    exact ⟨k,bump,vbump,dec,h',rfl,rfl,rfl⟩
  | cancelledListing _ ht _ _ _ _ => exact absurd (htag ▸ ht) (by decide)
  | expiredListing _ ht _ _ _ => exact absurd (htag ▸ ht) (by decide)
  | sold _ ht _ => exact absurd (htag ▸ ht) (by decide)
  | bought _ ht _ => exact absurd (htag ▸ ht) (by decide)
  | _ => exact absurd htag (by decide)

/-- In every reachable state the vault of a live swap that `open_swap` opened
holds the goods. -/
theorem OpenedBy.swap_escrowed (hs : SystemRules H) (ht : TokenRules H) (hf : Confined H)
    (hno : NoSeizure H) (hc : H.CollisionFree) (hk : (Place.swap maker nonce).At H r)
    (h : OpenedBy H (Assumed H) (.swap maker nonce) r s₀ s c s₁ m) (hd : c.data = 0 :: d) :
    Escrowed H (.swap maker nonce) (.vault maker nonce) sBump swapDue r s := by
  refine h.escrowed hs hf hno hc rfl hk (fun a s s' ha => ha.solid.2.2) (fun s s' ha => ha.rent rfl)
    ?_ ?_
  · rintro b rfl
    exact ⟨rfl,rfl⟩
  · obtain ⟨k,bump,vbump,dec,hopened,rfl,rfl,rfl⟩ := h.swap hs hf hc hk hd
    obtain ⟨rfl,hw⟩ := h.on
    exact hopened.escrowed hs ht hw hno

/-! ## Baskets -/

/-- A vault of a basket is stocked by its leg, and the legs after it leave it alone. -/
theorem OpenedBasket.escrowed {swap tokenProg : Pubkey} {bump idx : UInt8} {w g : ℕ → List Act}
    (hs : SystemRules E.host) (ht : TokenRules E.host) (hw : Wellformed E) (hno : NoSeizure E.host)
    (hc : E.host.CollisionFree) (h : OpenedBasket E d m m' maker swap tokenProg bump w g)
    (hm : m.trace = []) (hg : GenuineTokens (m'.trace.map Event.act)) :
    Escrowed E.host (.basket maker (slice d 0 32)) (.bvault maker (slice d 0 32) idx) bBump
      (basketDue idx) swap m'.ledger := by
  have hat : (Place.basket maker (slice d 0 32)).At E.host swap := .of_find h.nonce h.address
  have hst := h.stores
  have hhead : HeaderReads maker d (basketRecord E maker d bump (giveCount d)) bump :=
    basketRecord_header h.sized (Nat.le_refl _)
  constructor
  · rw [hst.2, hhead.bump]
    exact h.address
  · intro mint n hdue
    rw [hst.2, basketDue, hhead.giveCount] at hdue
    split at hdue
    · rename_i hi
      obtain ⟨hread,hreadn⟩ : entryMint (basketRecord E maker d bump (giveCount d)) bGive
        idx.toNat = _ ∧ _ :=
        basketRecord_give h.sized (Nat.le_refl _) hi
      rw [hread, hreadn, Option.some_inj, Prod.mk.injEq] at hdue
      obtain ⟨rfl,rfl⟩ := hdue
      have htr := did_trace _ _ _ h.did
      rw [hm, List.map_nil, List.nil_append] at htr
      obtain ⟨vault,source,vbump,dec,-,hpos,hv,hleg⟩ := h.legs _ hi
      rw [UInt8.ofNat_toNat] at hv hleg
      obtain ⟨pre,post,hsplit⟩ := flatMap_split g hi
      have hd := h.did
      rw [hsplit] at hd
      obtain ⟨m₁,-,hd⟩ := (did_append _ _ m m').mp hd
      obtain ⟨m₂,-,hd⟩ := (did_append _ _ m₁ m').mp hd
      have hinit : initAct tokenProg vault (giveMintAt E idx.toNat) swap ∈ m'.trace.map
        Event.act := by
        rw [htr, hsplit, hleg]
        simp
      rw [hleg] at hd
      obtain ⟨s₁,h₁,s₂,h₂,s₃,h₃,hrest⟩ := hd
      have hstock : Stocked s₃ vault (giveMintAt E idx.toNat) swap (giveAmountAt d idx.toNat) :=
        escrow_stocks hs ht (hg.inits hinit) hpos ⟨s₁,h₁,s₂,h₂,s₃,h₃,rfl⟩
      have hquiet : ¬SignsIn E (.write swap (basketRecord E maker d bump (idx.toNat+1)) :: post)
        swap := by
        intro hj
        rcases (signsIn_cons _ _ _).mp hj with hj | hj
        · exact signsIn_write _ _ _ hj
        · have hall : SignsIn E ((List.range (giveCount d)).flatMap g) swap := by
            rw [hsplit, signsIn_append, signsIn_append]
            exact .inr (.inr hj)
          obtain ⟨i,-,hat'⟩ := escrow_signs h.nonce h.legs hall
          cases hat'.inj hc hat
      exact ⟨vault,vbump,hv,hstock.frame (ran_holdings hw hno _ hrest.ran) hat.isPda hquiet⟩
    · cases hdue

/-- A live basket was opened by its maker. -/
theorem OpenedBy.basket (hs : SystemRules H) (hf : Confined H) (hc : H.CollisionFree)
    (hsys : H.programId ≠ systemId) (hk : (Place.basket maker nonce).At H r)
    (h : OpenedBy H ok (.basket maker nonce) r s₀ s c s₁ m) :
    ∃ d tokenProg bump w g, c.data = 12 :: d ∧
      OpenedBasket c.env d ⟨s₁,[]⟩ m maker r tokenProg bump w g ∧ slice d 0 32 = nonce := by
  have hu := h.uses hs hf hk
  obtain ⟨tag,d,hd,hout⟩ := Call.outcome hs hf h.on h.result
  obtain ⟨rfl,hw⟩ := h.on
  have hend := hout.basketEnd hw hf hc rfl hk hu
  -- a call that closes a basket leaves it wiped
  have hnot : ¬Wiped c.env.host (m.ledger r) := fun hz => h.episode.inside.2 hz.2
  cases hend with
  | opened mk tokenProg bump w g h' =>
    have hat : (Place.basket mk (slice d 0 32)).At c.env.host r := .of_find h'.nonce h'.address
    obtain ⟨rfl,rfl⟩ := Place.basket.inj (hk.inj hc hat)
    exact ⟨d,tokenProg,bump,w,g,hd,h',rfl⟩
  | filled _ _ _ _ _ _ hz => exact (hnot hz).elim
  | claimed _ _ _ _ _ hz => exact (hnot hz).elim
  | rewrapped bearer h' => exact (h.episode.outside h'.live).elim
  | cancelled _ _ _ _ _ _ hz => exact (hnot hz).elim
  | expired _ _ _ _ hz => exact (hnot hz).elim

/-- A re-keyed basket owes what it owed. -/
theorem sameTerms_due {b b' : Bytes} {idx : UInt8} (hg : (byteAt b bGiveCount).toNat ≤ maxLeg)
    (h : SameTerms b b') : basketDue idx b' = basketDue idx b := by
  rw [basketDue, basketDue, h.byte (.inl (by decide))]
  by_cases hi : idx.toNat < (byteAt b bGiveCount).toNat
  · have hin : bGive+idx.toNat*entryLen+40 ≤ bClaimAuth := by
      have hlt : idx.toNat+1 ≤ maxLeg := hi.trans_le hg
      simp only [bGive, entryLen, bClaimAuth, maxLeg] at *
      omega
    rw [if_pos hi, if_pos hi, h.mint (by omega), h.amount hin]
  · rw [if_neg hi, if_neg hi]

/-- In every reachable state each vault of a live basket holds its entry. -/
theorem basket_escrowed (hs : SystemRules H) (ht : TokenRules H) (hf : Confined H)
    (hno : NoSeizure H) (hc : H.CollisionFree) (hsys : H.programId ≠ systemId) (hg : Genesis H s₀)
    (hrun : Run H (Assumed H) s₀ s) (hk : (Place.basket maker nonce).At H r) (hl : Live H (s r))
    (idx : UInt8) :
    Escrowed H (.basket maker nonce) (.bvault maker nonce idx) bBump (basketDue idx) r s := by
  obtain ⟨c,s₁,m,h⟩ := exists_opening hs hf hc hsys hg (fun a s s' ha => ha.solid.1) hrun rfl hk hl
  obtain ⟨d,tokenProg,bump,w,g,-,hopened,rfl⟩ := h.basket hs hf hc hsys hk
  refine h.escrowed hs hf hno hc rfl hk (fun a s s' ha => ha.solid.2.2) (fun s s' ha => ha.rent rfl)
    ?_ ?_
  · intro b hsame
    have hgives : (byteAt (m.ledger r).data bGiveCount).toNat ≤ maxLeg := by
      rw [hopened.stores.2]
      exact BasketHolds.gives hopened.holds
    exact ⟨sameTerms_due hgives hsame,hsame.byte (.inr (by decide))⟩
  · have hgen := h.meets.solid.2.1
    simp only [Action.acts, h.result] at hgen
    obtain ⟨rfl,hw⟩ := h.on
    exact hopened.escrowed hs ht hw hno hc rfl hgen

end

end Xete.Swap
