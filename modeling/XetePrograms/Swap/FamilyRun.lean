import XetePrograms.Swap.Families
import XetePrograms.Swap.Market

/-!
# Custody of the three families over a run

The family of a record is what its open made it. As long as no NFT instruction
is aimed at a record that has a vault, a live record has in custody what its
family placed there, and the call that closes it releases that.
-/

set_option autoImplicit false

namespace Xete.Swap
open Xete.Octets Xete.Weakest Xete.Chain Xete.Token Xete.Runtime Xete.Rules

variable {E : Env} {H : Host} {m m' : Machine} {d nonce : Bytes} {tag bump : UInt8}
  {maker r v : Pubkey} {s s' : Ledger} {a : Action} {f : Option Family}

/-! ## One instruction -/

theorem Outcome.swap_tag (hc : E.host.CollisionFree) (h : Outcome E d m m' tag) (hm : m.trace = [])
    (hk : (Place.swap maker nonce).At E.host r) (hu : Uses E (m'.trace.map Event.act) r) :
    tag ∈ swapTags := by
  rcases hu with hs | ht
  · exact h.maySign hc hm hk hs
  · obtain ⟨as,hd,hfp⟩ := h.within
    rw [did_trace _ _ _ hd, hm] at ht
    obtain ⟨q,hq,hqk⟩ := hfp.changes r ht
    rwa [hqk.inj hc hk] at hq

/-- An open uses the record that it is aimed at. -/
theorem Outcome.opened_uses {g : Family} (h : Outcome E d m m' tag) (hm : m.trace = [])
    (ht : Family.opened tag = some g) (hslot : SlotIs E 1 r) :
    Uses E (m'.trace.map Event.act) r := by
  have hno : ∀ {xs : List UInt8}, tag ∈ xs → xs.all (fun t => (Family.opened t).isNone) = true →
    False := by
    intro xs hx hall
    have hn := List.all_eq_true.mp hall tag hx
    rw [ht] at hn
    cases hn
  cases h with
  | openedSwap k _ _ _ h =>
    obtain rfl := hslot.inj h.slot.slot
    rw [did_trace _ _ _ h.did, hm]
    exact .inr (by simp [openSwapActs, createAct, initAct, transferAct])
  | openedPnft k _ _ h =>
    obtain rfl := hslot.inj h.slot.slot
    rw [did_trace _ _ _ h.did, hm]
    exact .inr (by simp [openPnftActs, createAct])
  | openedCore k _ _ h =>
    obtain rfl := hslot.inj h.slot.slot
    rw [did_trace _ _ _ h.did, hm]
    exact .inr (by simp [createAct])
  | cancelledListing _ ht' _ _ _ _ => exact (hno ht' rfl).elim
  | expiredListing _ ht' _ _ _ => exact (hno ht' rfl).elim
  | sold _ ht' _ => exact (hno ht' rfl).elim
  | bought _ ht' _ => exact (hno ht' rfl).elim
  | _ => cases ht

/-- What a call that uses the record did with it: it opened or closed it. -/
theorem Outcome.swapUse (hs : SystemRules E.host) (ht : TokenRules E.host) (hmpl : MplRules E.host)
    (hcore : CoreRules E.host) (hw : Wellformed E) (hf : Confined E.host) (hno : NoSeizure E.host)
    (hc : E.host.CollisionFree) (hz : ¬E.signed zeroKey) (hm : m.trace = [])
    (hk : (Place.swap maker nonce).At E.host r)
    (hslot : Slot E.host (.swap maker nonce) (m.ledger r)) (h : Outcome E d m m' tag)
    (hg : GenuineTokens (m'.trace.map Event.act))
    (hmk : Live E.host (m.ledger r) → ¬E.host.IsPda maker)
    (hu : Uses E (m'.trace.map Event.act) r) :
    SlotIs E 1 r ∧ ((∃ g, Family.opened tag = some g ∧ Opened E m m' maker nonce r g) ∨
      Family.opened tag = none ∧ ∃ g, Family.closed tag = some g ∧
        Ended E m m' maker nonce r g) := by
  have htag := h.swap_tag hc hm hk hu
  have hopen : ∀ {mk k : Pubkey} {b : UInt8}, FreshSlot E d m mk k b →
      r = k → r = k ∧ mk = maker ∧ slice d 0 32 = nonce := by
    rintro mk k b hfresh rfl
    obtain ⟨rfl,rfl⟩ := Place.swap.inj (hfresh.at.inj hc hk)
    exact ⟨rfl,rfl,rfl⟩
  have hend : ∀ {t : UInt8} {g : Family}, Family.opened t = none → Family.closed t = some g →
      Ended E m m' maker nonce r g → SlotIs E 1 r ∧
        ((∃ g, Family.opened t = some g ∧ Opened E m m' maker nonce r g) ∨
          Family.opened t = none ∧ ∃ g, Family.closed t = some g ∧ Ended E m m' maker nonce r g) :=
    fun hop hcl he => ⟨he.slot,.inr ⟨hop,_,hcl,he⟩⟩
  cases h with
  | openedSwap k bump vbump dec h =>
    have hrec : r = k.swap := by
      rw [did_trace _ _ _ h.did, hm, List.map_nil, List.nil_append] at hu
      rcases hu with hj | hj
      · simp [openSwapActs, createAct, initAct, transferAct] at hj
        rcases hj with hj | hj
        · exact address_unique hj (E.host.find_create _ _ _ _ h.slot.address)
        · have hat : (Place.vault k.maker (slice d 0 32)).At E.host r := ⟨h.slot.nonce_length,_,hj⟩
          cases hat.inj hc hk
      · simpa [openSwapActs, createAct, initAct, transferAct] using hj
    obtain ⟨rfl,rfl,rfl⟩ := hopen h.slot hrec
    exact ⟨h.slot.slot,.inl ⟨_,rfl,h.opened hs ht hw hno hz⟩⟩
  | openedPnft k args bump h =>
    have hrec : r = k.swap := by
      rw [did_trace _ _ _ h.did, hm, List.map_nil, List.nil_append] at hu
      rcases hu with hj | hj
      · simp [openPnftActs, createAct] at hj
        exact address_unique hj (E.host.find_create _ _ _ _ h.slot.address)
      · simpa [openPnftActs, createAct] using hj
    obtain ⟨rfl,rfl,rfl⟩ := hopen h.slot hrec
    exact ⟨h.slot.slot,.inl ⟨_,rfl,h.opened hs hmpl hw hno hz⟩⟩
  | openedCore k collection bump h =>
    have hrec : r = k.swap := by
      rw [did_trace _ _ _ h.did, hm, List.map_nil, List.nil_append] at hu
      rcases hu with hj | hj
      · simp [createAct] at hj
        exact address_unique hj (E.host.find_create _ _ _ _ h.slot.address)
      · simpa [createAct] using hj
    obtain ⟨rfl,rfl,rfl⟩ := hopen h.slot hrec
    exact ⟨h.slot.slot,.inl ⟨_,rfl,h.opened hs hcore hw hno hz⟩⟩
  | filledSwap _ _ _ _ _ h => exact hend rfl rfl (h.ended hw hf hc hm hk hslot hu ht)
  | cancelledSwap _ _ _ _ hl _ h =>
    exact hend rfl rfl (h.ended hw hf hc hm hk hslot hu ht (idle_delistActs _ _ _) hl hg)
  | expiredSwap _ _ hl _ h => exact hend rfl rfl (h.ended hw hf hc hm hk hslot hu ht idle_nil hl hg)
  | acceptedOffer _ _ _ h => exact hend rfl rfl (h.ended hw hf hc hm hk hslot hu ht hg)
  | filledPnft _ _ _ _ _ _ h => exact hend rfl rfl (h.ended hw hf hc hm hk hslot hu hmpl hno)
  | cancelledPnft _ _ _ _ _ h =>
    exact hend rfl rfl (h.toReleasedPnft.ended hw hf hc hm hk hslot hu hmpl hno h.idle h.length
      h.back hmk)
  | expiredPnft _ _ _ _ h =>
    exact hend rfl rfl (h.toReleasedPnft.ended hw hf hc hm hk hslot hu hmpl hno idle_nil h.length
      h.back hmk)
  | filledCore _ _ _ _ h => exact hend rfl rfl (h.ended hw hf hc hm hk hslot hu hcore hno)
  | cancelledCore _ _ _ _ h =>
    exact hend rfl rfl (h.toReleasedCore.ended hw hf hc hm hk hslot hu hcore hno h.idle h.length
      h.back hmk)
  | expiredCore _ _ _ h =>
    exact hend rfl rfl (h.toReleasedCore.ended hw hf hc hm hk hslot hu hcore hno idle_nil h.length
      h.back hmk)
  | cancelledListing _ ht' _ _ _ _ => exact (cancel_not_swap ht' htag).elim
  | expiredListing _ ht' _ _ _ => exact (expire_not_swap ht' htag).elim
  | sold _ ht' _ => exact (settle_not_swap (.inl ht') htag).elim
  | bought _ ht' _ => exact (settle_not_swap (.inr ht') htag).elim
  | _ => exact absurd htag (by decide)

/-- The vault of a swap signs only where its record is opened. -/
theorem Outcome.vault_signs (hc : E.host.CollisionFree) (h : Outcome E d m m' tag)
    (hm : m.trace = [])
    (hr : E.host.findProgramAddress (swapSeeds maker nonce) E.programId = some (r,bump))
    (hv : (Place.vault maker nonce).At E.host v) (hs : SignsIn E (m'.trace.map Event.act) v) :
    tag = 0 ∧ Uses E (m'.trace.map Event.act) r := by
  have htag : tag = 0 := by simpa [MaySign] using h.maySign hc hm hv hs
  cases h with
  | openedSwap k _ vbump _ h =>
    rw [did_trace _ _ _ h.did, hm, List.map_nil, List.nil_append] at hs ⊢
    simp [openSwapActs, createAct, initAct, transferAct] at hs
    refine ⟨rfl,?_⟩
    rcases hs with hs | hs
    · have hat : (Place.swap k.maker (slice d 0 32)).At E.host v := ⟨h.slot.nonce_length,_,hs⟩
      cases hat.inj hc hv
    · have hat : (Place.vault k.maker (slice d 0 32)).At E.host v := ⟨h.slot.nonce_length,_,hs⟩
      obtain ⟨rfl,rfl⟩ := Place.vault.inj (hat.inj hc hv)
      have hkey := h.slot.address.symm.trans hr
      rw [Option.some_inj, Prod.mk.injEq] at hkey
      obtain ⟨rfl,-⟩ := hkey
      exact .inr (by simp [openSwapActs, createAct, initAct, transferAct])
  | cancelledListing _ ht _ _ _ _ => subst htag; exact absurd ht (by decide)
  | expiredListing _ ht _ _ _ => subst htag; exact absurd ht (by decide)
  | sold _ ht _ => subst htag; exact absurd ht (by decide)
  | bought _ ht _ => subst htag; exact absurd ht (by decide)
  | _ => exact absurd htag (by decide)

/-- The goods of the live record at `r`, of the family `f`, are in custody; no
other record of the address format has a vault. -/
structure GoodsKept (H : Host) (maker : Pubkey) (nonce : Bytes) (r : Pubkey) (f : Option Family)
    (s : Ledger) :
    Prop where
  held : Live H (s r) → ∃ g, f = some g ∧
    InCustody H maker nonce r (keyAt (s r).data sGiveMint) (u64At (s r).data sGiveAmt) s g
  party : Live H (s r) → ¬H.IsPda maker
  empty : ¬(Live H (s r) ∧ f = some .token) → NoVault H maker nonce s

theorem NoVault.frame {signed touched : Pubkey → Prop} (h : NoVault H maker nonce s)
    (hf : Frame H signed touched s s') (hn : nonce.length = 32)
    (hv : ∀ v, (Place.vault maker nonce).At H v → ¬signed v) : NoVault H maker nonce s' := by
  intro v b hb
  have hat : (Place.vault maker nonce).At H v := .of_find hn hb
  exact hf.vacant v hat.isPda (hv v hat) (h v b hb)

/-- A change for which neither the record nor the vault signs, and which leaves
the record in place. -/
theorem GoodsKept.frame {signed touched : Pubkey → Prop} (h : GoodsKept H maker nonce r f s)
    (hf : Frame H signed touched s s') (hh : Holdings H signed s s') (hr : H.IsPda r)
    (hn : nonce.length = 32) (hnr : ¬signed r)
    (hv : ∀ v, (Place.vault maker nonce).At H v → ¬signed v)
    (hsame : (Live H (s' r) ↔ Live H (s r)) ∧ (Live H (s r) → (s' r).data = (s r).data)) :
    GoodsKept H maker nonce r f s' where
  held hl := by
    have hl' := hsame.1.mp hl
    obtain ⟨g,hg,hheld⟩ := h.held hl'
    rw [hsame.2 hl']
    exact ⟨g,hg,hheld.frame hh hr hnr⟩
  party hl := h.party (hsame.1.mp hl)
  empty hnot := (h.empty fun hc => hnot ⟨hsame.1.mpr hc.1,hc.2⟩).frame hf hn hv

/-- A slot that is neither signed for nor changed stays what it is. -/
theorem slot_frame {p : Place} {signed touched : Pubkey → Prop} (hsys : H.programId ≠ systemId)
    (hf : Frame H signed touched s s') (hk : p.At H r) (hslot : Slot H p (s r)) (hnr : ¬signed r)
    (hnt : ¬touched r) :
    (Live H (s' r) ↔ Live H (s r)) ∧ (Live H (s r) → (s' r).data = (s r).data) := by
  by_cases ho : (s r).owner = H.programId
  · obtain ⟨ho',hd',-⟩ := hf.owned r ho hnt
    simp [Live, ho, ho', hd']
  · have hv : Vacant s r := by
      cases hslot with
      | vacant h₁ h₂ => exact ⟨h₁,h₂⟩
      | closed h₁ _ _ => exact (ho h₁).elim
      | live h₁ _ _ _ => exact (ho h₁).elim
    have hv' := hf.vacant r hk.isPda hnr hv
    have hdead : ¬Live H (s r) := fun hl => hsys (hl.1.symm.trans hv.1)
    have hdead' : ¬Live H (s' r) := fun hl => hsys (hl.1.symm.trans hv'.1)
    exact ⟨iff_of_false hdead' hdead,fun hl => (hdead hl).elim⟩

theorem GoodsKept.reap (h : GoodsKept H maker nonce r f s) (hsys : H.programId ≠ systemId)
    (hslot : Slot H (.swap maker nonce) (s r)) (hr : RentExempt s) :
    GoodsKept H maker nonce r f (reap s) := by
  have hsame : (Live H (Swap.reap s r) ↔ Live H (s r)) ∧
      (Live H (s r) → (Swap.reap s r).data = (s r).data) := by
    by_cases hl : (s r).lamports = 0
    · have hdead : ¬Live H (s r) := fun ha => (hslot.live_of hsys ha).2.1.ne' hl
      have hdead' : ¬Live H (Swap.reap s r) := by
        rw [reap_dead hl]
        exact fun ha => hsys ha.1.symm
      exact ⟨iff_of_false hdead' hdead,fun ha => (hdead ha).elim⟩
    · rw [reap_live (Nat.pos_of_ne_zero hl)]
      exact ⟨Iff.rfl,fun _ => rfl⟩
  constructor
  · intro hl
    have hl' := hsame.1.mp hl
    obtain ⟨g,hg,hheld⟩ := h.held hl'
    rw [hsame.2 hl']
    exact ⟨g,hg,hheld.reap hr⟩
  · intro hl
    exact h.party (hsame.1.mp hl)
  · intro hnot v b hb
    exact vacant_reap (h.empty (fun hc => hnot ⟨hsame.1.mpr hc.1,hc.2⟩) v b hb)

/-! ## Runs -/

instance (E : Env) (i : ℕ) (k : Pubkey) : Decidable (SlotIs E i k) := by
    unfold SlotIs; infer_instance

def familyAfter (a : Action) (r : Pubkey) (f : Option Family) : Option Family :=
  match a with
  | .call ⟨env,tag :: _⟩ => if SlotIs env 1 r then (Family.opened tag).or f else f
  | _ => f

inductive FamilyRun (H : Host) (ok : Action → Ledger → Ledger → Prop) (r : Pubkey) (s₀ : Ledger) :
    Option Family → Ledger → Prop
  | refl : FamilyRun H ok r s₀ none s₀
  | tail (f : Option Family) (a : Action) (s s' : Ledger) (h : FamilyRun H ok r s₀ f s)
      (hstep : Step H a s s') (hok : ok a s s') : FamilyRun H ok r s₀ (familyAfter a r f) s'

theorem FamilyRun.run {ok : Action → Ledger → Ledger → Prop} {s₀ : Ledger}
    (h : FamilyRun H ok r s₀ f s) : Run H ok s₀ s := by
  induction h with
  | refl => exact .refl
  | tail f a s s' _ hstep hok ih => exact .tail ih ⟨a,hstep,hok⟩

/-- What is assumed of every step: the all-zero key signs nothing, the token
programs are genuine, no permanent delegate seizes anything, and what the token
programs and Core own is exempt from rent. -/
structure Assumed (H : Host) (a : Action) (s s' : Ledger) : Prop where
  solid : Solid H a s s'
  rent : a = .reap → RentExempt s

def Parted (H : Host) (a : Action) (s : Ledger) : Prop :=
  ∀ c tag d k maker nonce, a = .call c → c.data = tag :: d → Family.closed tag = some .pnft →
    SlotIs c.env 1 k → (Place.swap maker nonce).At H k → NoVault H maker nonce s

def AssumedParted (H : Host) (a : Action) (s s' : Ledger) : Prop := Assumed H a s s' ∧ Parted H a s

theorem familyAfter_call {c : Call} (hd : c.data = tag :: d) :
    familyAfter (.call c) r f = if SlotIs c.env 1 r then (Family.opened tag).or f else f := by
  obtain ⟨env,data⟩ := c
  subst hd
  rfl

/-- The release of a closing call is that of the record's own family. -/
theorem Ended.family {g : Family} (h : Ended E m m' maker nonce r g)
    (hk : (Place.swap maker nonce).At E.host r) (hg : GoodsKept E.host maker nonce r f m.ledger)
    (hp : g = .pnft → NoVault E.host maker nonce m.ledger) : f = some g := by
  obtain ⟨g',rfl,hheld⟩ := hg.held h.live
  have he : g' = g := by
    refine hheld.presented h.presents hk.isPda (fun hne => hg.empty fun hc => hne ?_) hp
    exact Option.some_inj.mp hc.2
  rw [he]

theorem GoodsKept.call {c : Call} (hs : SystemRules H) (ht : TokenRules H) (hmpl : MplRules H)
    (hcore : CoreRules H) (hf : Confined H) (hno : NoSeizure H) (hc : H.CollisionFree)
    (hn : nonce.length = 32)
    (hr : H.findProgramAddress (swapSeeds maker nonce) H.programId = some (r,bump)) (ho : c.On H)
    (hres : c.result s = some m) (hok : AssumedParted H (.call c) s m.ledger)
    (hslot : Slot H (.swap maker nonce) (s r)) (h : GoodsKept H maker nonce r f s) :
    GoodsKept H maker nonce r (familyAfter (.call c) r f) m.ledger := by
  obtain ⟨tag,d,hdata,hout⟩ := Call.outcome hs hf ho hres
  obtain ⟨⟨⟨hkey,hgen,-⟩,-⟩,hparted⟩ := hok
  simp only [Action.acts, hres] at hgen
  obtain ⟨rfl,hw⟩ := ho
  have hk : (Place.swap maker nonce).At c.env.host r := .of_find hn hr
  obtain ⟨as,hd,-⟩ := hout.within
  have hacts : m.trace.map Event.act = as := by
    rw [did_trace _ _ _ hd]
    rfl
  have hfr := ran_frame hw hf as hd.ran
  rw [familyAfter_call hdata]
  by_cases hu : Uses c.env (m.trace.map Event.act) r
  · obtain ⟨hs₁,⟨g,hopen,hnew⟩ | ⟨hopen,g,hclosed,hend⟩⟩ :=
      hout.swapUse hs ht hmpl hcore hw hf hno hc (hkey c rfl) rfl hk hslot hgen h.party hu
    · have hdead : ¬Live c.env.host (s r) := fun hl => hw.notSystem (hl.1.symm.trans hnew.fresh.1)
      rw [if_pos hs₁, hopen, Option.some_or]
      refine ⟨fun _ => ⟨g,rfl,hnew.held⟩,fun _ => ?_,fun hnot => ?_⟩
      · obtain ⟨a,ha,hak,hsign⟩ := hnew.signed
        exact hak ▸ hw.signers a ha hsign
      · have hempty := h.empty fun hc => hdead hc.1
        refine hempty.frame hfr hn fun v hv hj => hnot ⟨hnew.live,?_⟩
        obtain ⟨rfl,-⟩ := hout.vault_signs hc rfl hr hv (hacts ▸ hj)
        exact hopen.symm
    · have hfam : f = some g := by
        apply hend.family hk h
        intro hg
        exact hparted c tag d r maker nonce rfl hdata (hg ▸ hclosed) hs₁ hk
      have hdead : ¬Live c.env.host (m.ledger r) := fun hl => hl.2 hend.wiped.2
      rw [if_pos hs₁, hopen, Option.none_or]
      refine ⟨fun hl => (hdead hl).elim,fun hl => (hdead hl).elim,fun _ => ?_⟩
      by_cases hg : g = .token
      · subst hg
        obtain ⟨v,b,hv,-,-,hgone⟩ := hend.released
        exact found_vacant hv hgone
      · have hempty := h.empty fun hc => hg (Option.some_inj.mp (hfam.symm.trans hc.2))
        apply hempty.frame hfr hn
        intro v hv hj
        obtain ⟨rfl,-⟩ := hout.vault_signs hc rfl hr hv (hacts ▸ hj)
        cases hopen
  · have hsame := slot_frame hw.notSystem hfr hk hslot (fun hj => hu (.inl (hacts ▸ hj)))
      (fun hj => hu (.inr (hacts ▸ hj)))
    have hkeep := h.frame hfr (ran_holdings hw hno as hd.ran) hk.isPda hn
      (fun hj => hu (.inl (hacts ▸ hj)))
      (fun v hv hj => hu (hout.vault_signs hc rfl hr hv (hacts ▸ hj)).2) hsame
    have hfam : (if SlotIs c.env 1 r then (Family.opened tag).or f else f) = f := by
      split
      · rename_i hs₁
        cases hopen : Family.opened tag with
        | none => rfl
        | some g => exact (hu (hout.opened_uses rfl hopen hs₁)).elim
      · rfl
    rw [hfam]
    exact hkeep

section
open Xete.Market Xete.Reference

theorem assumed_call {c : Call} (hz : ¬c.env.signed zeroKey) (hr : c.result s = some m)
    (hg : GenuineTokens (m.trace.map Event.act)) : Assumed H (.call c) s m.ledger where
  solid := by
    refine ⟨keyed_of hz,?_,unseized_call⟩
    rwa [Action.acts, hr]
  rent := nofun

end

end Xete.Swap
