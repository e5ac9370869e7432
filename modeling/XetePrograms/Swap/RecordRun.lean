import XetePrograms.Swap.RecordEnds

/-!
# The records over a run

A slot of the program is empty, holds a live record or holds the zeros of a
closed one. Over a run it is opened as often as it is closed, once more while
it is live.
-/

set_option autoImplicit false

namespace Xete.Swap
open Xete.Octets Xete.Weakest Xete.Chain Xete.Token Xete.Runtime Xete.Rules

variable {H : Host} {p : Place} {k : Pubkey} {s s' : Ledger} {a : Action}

def Genesis (H : Host) (s : Ledger) : Prop := ∀ (p : Place) k, p ≠ .config → p.At H k → Vacant s k

theorem Genesis.vacant (h : Genesis H s) (hp : p.party.isSome) (hk : p.At H k) : Vacant s k := by
  apply h p k _ hk
  rintro rfl
  cases hp

def Keyed (a : Action) (_ _ : Ledger) : Prop := ∀ c, a = .call c → ¬c.env.signed zeroKey

inductive Slot (H : Host) (p : Place) (a : Account) : Prop
  | vacant (owner : a.owner = systemId) (data : a.data = [])
  | closed (owner : a.owner = H.programId) (data : a.data = zeros a.data.length)
      (party : p.party ≠ some zeroKey)
  | live (owner : a.owner = H.programId) (holds : p.Holds a.data) (lamports : 0 < a.lamports)
      (party : p.party ≠ some zeroKey)

def Live (H : Host) (a : Account) : Prop := a.owner = H.programId ∧ a.data ≠ zeros a.data.length

def Wiped (H : Host) (a : Account) : Prop := a.owner = H.programId ∧ a.data = zeros a.data.length

instance (H : Host) (a : Account) : Decidable (Live H a) := by unfold Live; infer_instance

theorem Place.Holds.nonzero {b : Bytes} (h : p.Holds b) (hz : p.party ≠ some zeroKey) :
    b ≠ zeros b.length := by
  intro hb
  rw [h.party, hb, keyAt_zeros] at hz
  exact hz rfl

theorem Slot.live_of {a : Account} (h : Slot H p a) (hs : H.programId ≠ systemId) (ha : Live H a) :
    p.Holds a.data ∧ 0 < a.lamports ∧ p.party ≠ some zeroKey := by
  cases h with
  | vacant ho _ => exact (hs (ha.1.symm.trans ho)).elim
  | closed _ hd _ => exact (ha.2 hd).elim
  | live _ hh hl hz => exact ⟨hh,hl,hz⟩

theorem Place.Holds.isLive {a : Account} (ho : a.owner = H.programId) (hh : p.Holds a.data)
    (hz : p.party ≠ some zeroKey) : Live H a := ⟨ho,hh.nonzero hz⟩

/-- A re-keyed record keeps its other fields. -/
theorem BasketHolds.rekey {maker : Pubkey} {nonce b auth : Bytes} (h : BasketHolds maker nonce b)
    (ha : auth.length = 32) : BasketHolds maker nonce (patch b bClaimAuth auth) := by
  have hl := h.length
  have hr : ∀ off len, off+len ≤ bClaimAuth ∨ bClaimAuth+32 ≤ off →
      slice (patch b bClaimAuth auth) off len = slice b off len := fun off len ho =>
    slice_patch_disjoint b auth off len bClaimAuth (by rw [ha]; exact ho)
      (by rw [hl, ha]; decide)
  constructor
  · rw [patch_length _ _ _ (by rw [hl, ha]; decide), hl]
  · rw [← h.maker]
    apply Pubkey.ext'
    rw [keyAt_bytes _ _ (by rw [patch_length _ _ _ (by rw [hl, ha]; decide), hl]; decide),
      keyAt_bytes _ _ (by rw [hl]; decide)]
    exact hr _ _ (by decide)
  · rw [byteAt_eq_slice, hr _ _ (by decide), ← byteAt_eq_slice]
    exact h.gives
  · rw [← h.isOpen, byteAt_eq_slice, byteAt_eq_slice, hr _ _ (by decide)]
  · rw [← h.nonce]
    exact hr _ _ (by decide)

/-! ## One step -/

def Action.acts (a : Action) (s : Ledger) : List Act :=
  match a with
  | .call c => match c.result s with
    | some m => m.trace.map Event.act
    | none => []
  | _ => []

def liveCount (H : Host) (a : Account) : ℕ := if Live H a then 1 else 0

structure SlotStep (H : Host) (p : Place) (k : Pubkey) (as : List Act) (s s' : Ledger) : Prop where
  slot : Slot H p (s' k)
  count : openings k as+liveCount H (s k) = closings k as+liveCount H (s' k)

section
variable {E : Env} {d : Bytes} {as : List Act} {m m' : Machine}

/-- An account that nothing names. -/
theorem SlotStep.frame {signed touched : Pubkey → Prop} (hs : H.programId ≠ systemId)
    (hf : Frame H signed touched s s') (hk : p.At H k) (h : Slot H p (s k)) (hns : ¬signed k)
    (hnt : ¬touched k) (ho : openings k as = 0) (hc : closings k as = 0) :
    SlotStep H p k as s s' := by
  cases h with
  | vacant hso hsd =>
    obtain ⟨ho',hd'⟩ := hf.vacant k hk.isPda hns ⟨hso,hsd⟩
    refine ⟨.vacant ho' hd',?_⟩
    simp [liveCount, Live, ho, hc, hso, ho', hs.symm]
  | closed hso hsd hz =>
    obtain ⟨ho',hd',-⟩ := hf.owned k hso hnt
    refine ⟨.closed ho' (by rw [hd']; exact hsd) hz,?_⟩
    simp [liveCount, Live, ho, hc, hso, ho', hd']
  | live hso hh hl hz =>
    obtain ⟨ho',hd',hl'⟩ := hf.owned k hso hnt
    refine ⟨.live ho' (by rw [hd']; exact hh) (hl.trans_le hl') hz,?_⟩
    simp [liveCount, Live, ho, hc, hso, ho', hd']

theorem RecordEnd.slotStep (hs : SystemRules E.host) (hw : Wellformed E) (hf : Confined E.host)
    (hc : E.host.CollisionFree) (hz : ¬E.signed zeroKey) (hd : Did E as m m') (hk : p.At E.host k)
    (h : Slot E.host p (m.ledger k)) (he : RecordEnd E d as m m' k) :
    SlotStep E.host p k as m.ledger m'.ledger := by
  cases he with
  | opened q party payer space seeds rest b hq hp hsign hfirst hnever hb hst _ =>
    obtain rfl := hq.inj hc hk
    have hpz : q.party ≠ some zeroKey := by
      rw [hp]
      intro heq
      exact hz (Option.some_inj.mp heq ▸ hsign)
    subst hfirst
    obtain ⟨s₁,he,hrest⟩ := hd
    have hv : Vacant m.ledger k := create_vacant hs he
    simp only [createAct, Act.effect] at he
    split at he
    · obtain ⟨-,-,hnew,-⟩ := hs.create _ _ _ _ _ _ _ he
      have hown : (s₁ k).owner = E.programId := by rw [hnew]
      obtain ⟨-,hopen,hlam⟩ := did_owned hs hw hf hown hrest
      have hcl : closings k rest = 0 := by
        rw [← List.singleton_append, closings_append] at hnever
        omega
      have hpos : 0 < (s₁ k).lamports := by
        rw [hnew]
        exact hs.rent space
      have hone : openings k (createAct E payer k space E.programId seeds :: rest) = 1 := by
        rw [openings, List.countP_cons_of_pos (by simp [createAct, Act.Opens])]
        exact congrArg (·+1) hopen
      have hbl : q.Holds (m'.ledger k).data := by rw [hst.2]; exact hb
      have hdead : ¬Live E.host (m.ledger k) := fun hl => hw.notSystem (hl.1.symm.trans hv.1)
      refine ⟨.live hst.1 hbl (hlam hcl hpos) hpz,?_⟩
      rw [hone, hnever, liveCount, if_neg hdead, liveCount, if_pos (hbl.isLive hst.1 hpz)]
    · cases he
  | closed q hq ho hp honce hst =>
    obtain rfl := hq.inj hc hk
    have hlive : Live E.host (m.ledger k) ∧ q.party ≠ some zeroKey := by
      cases h with
      | vacant hso _ => exact (hw.notSystem (ho.symm.trans hso)).elim
      | closed _ hsd hpz =>
        rw [hsd, keyAt_zeros] at hp
        exact (hpz hp).elim
      | live _ hh _ hpz => exact ⟨hh.isLive ho hpz,hpz⟩
    have hlen : (m'.ledger k).data = zeros (m'.ledger k).data.length := by
      rw [hst.2, zeros_length]
    have hdead : ¬Live E.host (m'.ledger k) := fun hl => hl.2 hlen
    refine ⟨.closed hst.1 hlen hlive.2,?_⟩
    rw [(did_owned hs hw hf ho hd).created, honce, liveCount, if_pos hlive.1, liveCount,
      if_neg hdead]
  | rekeyed maker bearer nonce hq hmk hnever hr =>
    obtain rfl := hq.inj hc hk
    obtain ⟨s₁,he,hm'⟩ := hr.did
    have hst : Stores E k (patch (m.ledger k).data bClaimAuth (slice d 32 32)) m' := by
      rw [hm']
      exact effect_write_stores he
    obtain ⟨-,hopen,hlam⟩ := did_owned hs hw hf hr.owner hd
    have hauth : (slice d 32 32).length = 32 := slice_length _ _ _ (by have := hr.length; omega)
    cases h with
    | vacant hso _ => exact (hw.notSystem (hr.owner.symm.trans hso)).elim
    | closed _ hsd _ =>
      have hmode := hr.mode
      rw [hsd, byteAt_zeros] at hmode
      exact absurd hmode (by decide)
    | live ho hh hl hpz =>
      have hh' : (Place.basket maker nonce).Holds (m'.ledger k).data := by
        rw [hst.2]
        exact BasketHolds.rekey hh hauth
      refine ⟨.live hst.1 hh' (hlam hnever hl) hpz,?_⟩
      rw [hopen, hnever, liveCount, if_pos (hh.isLive ho hpz), liveCount,
        if_pos (hh'.isLive hst.1 hpz)]

theorem Ends.slotStep (hs : SystemRules E.host) (hw : Wellformed E) (hf : Confined E.host)
    (hc : E.host.CollisionFree) (hz : ¬E.signed zeroKey) (hp : p.party.isSome) (hk : p.At E.host k)
    (h : Slot E.host p (m.ledger k)) (hm : m.trace = []) (he : Ends E d m m') :
    SlotStep E.host p k (m'.trace.map Event.act) m.ledger m'.ledger := by
  obtain ⟨as,K,hd,hn,hK⟩ := he
  rw [did_trace _ _ _ hd, hm, List.map_nil, List.nil_append]
  by_cases hKk : K k
  · exact (hK k hKk).slotStep hs hw hf hc hz hd hk h
  · have hparty : ¬∃ q : Place, q.party = none ∧ q.At E.host k := by
      rintro ⟨q,hq,hqk⟩
      rw [← hqk.inj hc hk, hq] at hp
      cases hp
    have hns : ¬SignsIn E as k := fun hj => (hn.signs k hj).elim hKk hparty
    have hnt : ¬TouchedIn as k := fun hj => (hn.changes k hj).elim hKk hparty
    exact .frame hw.notSystem (ran_frame hw hf as hd.ran) hk h hns hnt
      (openings_unsigned hw hk.isPda hd hns) (closings_untouched hnt)

end

theorem reap_dead (h : (s k).lamports = 0) : reap s k = ⟨0,systemId,[]⟩ := by
  simp [reap, h]

theorem Step.slotStep (hs : SystemRules H) (hf : Confined H) (hc : H.CollisionFree)
    (hsys : H.programId ≠ systemId) (hp : p.party.isSome) (hk : p.At H k) (hstep : Step H a s s')
    (hz : Keyed a s s') (h : Slot H p (s k)) : SlotStep H p k (a.acts s) s s' := by
  cases hstep with
  | call c _ m ho hr =>
    obtain ⟨tag,d,-,hh⟩ := Call.handled hr
    obtain ⟨rfl,hw⟩ := ho
    have he := (wp_ok (handler_outcome hs hw hf) hh).ends hw hf hc rfl
    simp only [Action.acts, hr]
    exact he.slotStep hs hw hf hc (hz c rfl) hp hk h rfl
  | outside _ _ hfr => exact .frame hsys hfr hk h id id rfl rfl
  | reap =>
    by_cases hl : (s k).lamports = 0
    · have hr : Swap.reap s k = ⟨0,systemId,[]⟩ := reap_dead hl
      have hdead : ¬Live H (s k) := fun ha => (h.live_of hsys ha).2.1.ne' hl
      refine ⟨by rw [hr]; exact .vacant rfl rfl,?_⟩
      have hdead' : ¬Live H (Swap.reap s k) := by
        rw [hr]
        exact fun ha => hsys ha.1.symm
      simp [liveCount, hdead, hdead', Action.acts, openings, closings]
    · have hr : Swap.reap s k = s k := reap_live (Nat.pos_of_ne_zero hl)
      refine ⟨by rw [hr]; exact h,?_⟩
      rw [hr]
      rfl

/-! ## Runs -/

inductive LoggedRun (H : Host) (ok : Action → Ledger → Ledger → Prop) :
    List Act → Ledger → Ledger → Prop
  | refl (s : Ledger) : LoggedRun H ok [] s s
  | tail (log : List Act) (a : Action) (s s₁ s' : Ledger) (h : LoggedRun H ok log s s₁)
      (hstep : Step H a s₁ s') (hok : ok a s₁ s') : LoggedRun H ok (log ++ a.acts s₁) s s'

theorem LoggedRun.run {ok : Action → Ledger → Ledger → Prop} {log : List Act}
    (h : LoggedRun H ok log s s') : Run H ok s s' := by
  induction h with
  | refl s => exact .refl
  | tail log a s s₁ s' _ hstep hok ih => exact .tail ih ⟨a,hstep,hok⟩

theorem run_slot (hs : SystemRules H) (hf : Confined H) (hc : H.CollisionFree)
    (hsys : H.programId ≠ systemId) (hg : Genesis H s) (h : Run H Keyed s s') (hp : p.party.isSome)
    (hk : p.At H k) : Slot H p (s' k) := by
  refine h.invariant (P := fun s => Slot H p (s k)) (fun a s s' hstep hz h => ?_) ?_
  · exact (hstep.slotStep hs hf hc hsys hp hk hz h).slot
  · obtain ⟨ho,hd⟩ := hg.vacant hp hk
    exact .vacant ho hd

/-- Over a run the slot is opened as often as it is closed, and once more while
it is live. -/
theorem run_count (hs : SystemRules H) (hf : Confined H) (hc : H.CollisionFree)
    (hsys : H.programId ≠ systemId) (hg : Genesis H s) {log : List Act}
    (h : LoggedRun H Keyed log s s') (hp : p.party.isSome) (hk : p.At H k) :
    openings k log = closings k log+liveCount H (s' k) := by
  induction h with
  | refl s =>
    have hdead : ¬Live H (s k) := fun hl => hsys (hl.1.symm.trans (hg.vacant hp hk).1)
    simp [openings, closings, liveCount, hdead]
  | tail log a s s₁ s' h hstep hok ih =>
    have hslot := run_slot hs hf hc hsys hg h.run hp hk
    have hcount := (hstep.slotStep hs hf hc hsys hp hk hok hslot).count
    rw [openings_append, closings_append, ih hg]
    omega

end Xete.Swap
