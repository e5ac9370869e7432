import XetePrograms.Solana.Rules
import XetePrograms.Solana.Runtime

/-!
# What a call leaves alone

A call is a sequence of acts. An address of the program that does not sign in
it keeps its tokens, and an account of the program that it neither writes nor
closes keeps its data.
-/

set_option autoImplicit false

namespace Xete.Rules
open Xete.Octets Xete.Chain Xete.Token Xete.Runtime

variable {E : Env} {s s' : Ledger}

/-- What the runtime guarantees of a call: no address of the program signed the
transaction, and the program is none of the well-known ones. -/
structure Wellformed (E : Env) : Prop where
  signers : ∀ a ∈ E.accounts, a.isSigner = true → ¬E.host.IsPda a.key
  notSystem : E.programId ≠ systemId
  notToken : ¬IsTokenProgram E.programId
  notCore : E.programId ≠ mplCoreId

/-- Only the accounts and the program matter. -/
theorem Wellformed.congr {E' : Env} (h : Wellformed E) (hh : E'.host = E.host)
    (ha : E'.accounts = E.accounts) : Wellformed E' := by
  obtain ⟨hs,h₁,h₂,h₃⟩ := h
  rw [← ha, ← hh] at hs
  rw [Env.programId, ← hh] at h₁ h₂ h₃
  exact ⟨hs,h₁,h₂,h₃⟩

/-- `k` signs in one of the acts. -/
def SignsIn (E : Env) (acts : List Act) (k : Pubkey) : Prop :=
  ∃ c seeds, .invoke c (some seeds) ∈ acts ∧ E.host.createProgramAddress seeds E.programId = some k

/-- One of the acts writes or closes `k`. -/
def TouchedIn (acts : List Act) (k : Pubkey) : Prop :=
  (∃ d, .write k d ∈ acts) ∨ ∃ dest, .close k dest ∈ acts

section
variable {H : Host} {held signed touched : Pubkey → Prop}

/-- A program rewrites one of its own accounts. -/
theorem frame_update (k : Pubkey) (hk : (s k).owner = H.programId) (hs : H.programId ≠ systemId)
    (ht : touched k) (ho : ∀ a, (s' a).owner = (s a).owner)
    (hd : ∀ a, a ≠ k → (s' a).data = (s a).data ∧ (s a).lamports ≤ (s' a).lamports) :
    Frame H signed touched s s' where
  owned a ha hna := by
    have hne : a ≠ k := by
      rintro rfl
      exact hna ht
    exact ⟨(ho a).trans ha,hd a hne⟩
  vacant a _ _ hv := by
    have hne : a ≠ k := by
      rintro rfl
      exact hs (hk.symm.trans hv.1)
    exact ⟨(ho a).trans hv.1,(hd a hne).1.trans hv.2⟩

/-- Its own accounts are neither token accounts, mints nor assets. -/
theorem holdings_update (k : Pubkey) (hk : (s k).owner = H.programId)
    (hn : ¬IsTokenProgram H.programId) (hc : H.programId ≠ mplCoreId)
    (ho : ∀ a, (s' a).owner = (s a).owner)
    (hd : ∀ a, a ≠ k → (s' a).data = (s a).data ∧ (s a).lamports ≤ (s' a).lamports) :
    HoldingsOf H held signed s s' where
  tokens a t hat _ _ _ hsl := by
    have hne : a ≠ k := by
      rintro rfl
      exact hn (hk ▸ (tokenAt_some _ _ _ hat).1)
    refine ⟨⟨t,?_,Grows.refl t hsl⟩,(hd a hne).2⟩
    rw [tokenAt_congr _ _ _ (ho a) (hd a hne).1, hat]
  mints a t hat _ _ _ _ _ him := by
    have hne : t.mint ≠ k := by
      intro h
      have hp := (tokenAt_some _ _ _ hat)
      rw [← hp.2.2.1, ← him.1, h, hk] at hp
      exact hn hp.1
    exact ⟨(isMint_congr _ _ _ _ (ho _) (hd _ hne).1).mpr him,by
      rw [mintDecimalsAt, mintDecimalsAt, (hd _ hne).1]⟩
  cores _ a o hao _ _ := by
    have hne : a ≠ k := by
      rintro rfl
      have := hao
      unfold coreOwner at this
      split at this
      · rename_i h
        exact hc (hk.symm.trans h.1)
      · cases this
    rw [coreOwner_congr _ _ _ (ho a) (hd a hne).1, hao]

end

/-- A write and a close change an account of the program. -/
theorem effect_own {a : Act} {k : Pubkey} (h : a.effect E s = some s')
    (ha : (∃ d, a = .write k d) ∨ ∃ dest, a = .close k dest) :
    (s k).owner = E.programId ∧ (∀ b, (s' b).owner = (s b).owner) ∧
      ∀ b, b ≠ k → (s' b).data = (s b).data ∧ (s b).lamports ≤ (s' b).lamports := by
  rcases ha with ⟨d,rfl⟩ | ⟨dest,rfl⟩
  · simp only [Act.effect] at h
    split at h
    · rename_i hp
      cases h
      refine ⟨hp.1,by simp,fun b hb => ?_⟩
      simp [setData_other _ _ _ _ hb]
    · cases h
  · simp only [Act.effect] at h
    split at h
    · rename_i hp
      cases h
      exact ⟨hp.1,by simp,fun b hb => drain_other _ _ _ _ hb⟩
    · cases h

/-- The addresses of the program that sign a call are those of its seeds. -/
theorem permits_signsIn (hw : Wellformed E) {c : Cpi} {seeds : Option (List Bytes)}
    (hp : E.permits c seeds) {k : Pubkey} (hk : E.host.IsPda k) (hmem : k ∈ c.signers) :
    SignsIn E [.invoke c seeds] k := by
  rcases E.permits_signer c seeds hp k hmem with ⟨a,ha,hak,hs⟩ | hs
  · rw [← hak] at hk
    exact (hw.signers a ha hs hk).elim
  · cases seeds with
    | none => cases hs
    | some ss => exact ⟨c,ss,by simp,hs⟩

theorem effect_frame (hw : Wellformed E) (hf : Confined E.host) (a : Act)
    (h : a.effect E s = some s') : Frame E.host (SignsIn E [a]) (TouchedIn [a]) s s' := by
  cases a with
  | invoke c seeds =>
    simp only [Act.effect] at h
    split at h
    · rename_i hp
      exact (hf c s s' hp.1 h).mono (fun k hk => permits_signsIn hw hp hk) (fun _ => False.elim)
    · cases h
  | write k d =>
    obtain ⟨hk,ho,hd⟩ := effect_own h (.inl ⟨d,rfl⟩)
    exact frame_update k hk hw.notSystem (.inl ⟨d,by simp⟩) ho hd
  | close k dest =>
    obtain ⟨hk,ho,hd⟩ := effect_own h (.inr ⟨dest,rfl⟩)
    exact frame_update k hk hw.notSystem (.inr ⟨dest,by simp⟩) ho hd
  | log d =>
    cases h
    exact Frame.refl _ _ _ _

theorem effect_holdings {held : Pubkey → Prop} (hw : Wellformed E) (hz : NoSeizureOf E.host held)
    (a : Act) (h : a.effect E s = some s') : HoldingsOf E.host held (SignsIn E [a]) s s' := by
  cases a with
  | invoke c seeds =>
    simp only [Act.effect] at h
    split at h
    · rename_i hp
      exact (hz c s s' hp.1 h).mono fun k hk => permits_signsIn hw hp hk
    · cases h
  | write k d =>
    obtain ⟨hk,ho,hd⟩ := effect_own h (.inl ⟨d,rfl⟩)
    exact holdings_update k hk hw.notToken hw.notCore ho hd
  | close k dest =>
    obtain ⟨hk,ho,hd⟩ := effect_own h (.inr ⟨dest,rfl⟩)
    exact holdings_update k hk hw.notToken hw.notCore ho hd
  | log d =>
    cases h
    exact HoldingsOf.refl _ _ _ _

theorem signsIn_cons (a : Act) (as : List Act) (k : Pubkey) :
    SignsIn E (a :: as) k ↔ SignsIn E [a] k ∨ SignsIn E as k := by
  simp only [SignsIn, List.mem_cons, List.not_mem_nil, or_false]
  constructor
  · rintro ⟨c,seeds,h | h,hk⟩
    · exact .inl ⟨c,seeds,h,hk⟩
    · exact .inr ⟨c,seeds,h,hk⟩
  · rintro (⟨c,seeds,h,hk⟩ | ⟨c,seeds,h,hk⟩)
    · exact ⟨c,seeds,.inl h,hk⟩
    · exact ⟨c,seeds,.inr h,hk⟩

theorem touchedIn_cons (a : Act) (as : List Act) (k : Pubkey) :
    TouchedIn (a :: as) k ↔ TouchedIn [a] k ∨ TouchedIn as k := by
  simp only [TouchedIn, List.mem_cons, List.not_mem_nil, or_false, exists_or]
  tauto

@[simp] theorem signsIn_nil (k : Pubkey) : ¬SignsIn E [] k := by
  simp [SignsIn]

@[simp] theorem touchedIn_nil (k : Pubkey) : ¬TouchedIn [] k := by
  simp [TouchedIn]

@[simp] theorem signsIn_cons_cons (a b : Act) (as : List Act) (k : Pubkey) :
    SignsIn E (a :: b :: as) k ↔ SignsIn E [a] k ∨ SignsIn E (b :: as) k := signsIn_cons _ _ _

@[simp] theorem touchedIn_cons_cons (a b : Act) (as : List Act) (k : Pubkey) :
    TouchedIn (a :: b :: as) k ↔ TouchedIn [a] k ∨ TouchedIn (b :: as) k := touchedIn_cons _ _ _

@[simp] theorem signsIn_append (as bs : List Act) (k : Pubkey) :
    SignsIn E (as ++ bs) k ↔ SignsIn E as k ∨ SignsIn E bs k := by
  induction as with
  | nil => simp
  | cons a as ih => rw [List.cons_append, signsIn_cons, ih, signsIn_cons a as, or_assoc]

@[simp] theorem touchedIn_append (as bs : List Act) (k : Pubkey) :
    TouchedIn (as ++ bs) k ↔ TouchedIn as k ∨ TouchedIn bs k := by
  induction as with
  | nil => simp
  | cons a as ih => rw [List.cons_append, touchedIn_cons, ih, touchedIn_cons a as, or_assoc]

@[simp] theorem signsIn_invoke (c : Cpi) (seeds : List Bytes) (k : Pubkey) :
    SignsIn E [.invoke c (some seeds)] k ↔
      E.host.createProgramAddress seeds E.programId = some k := by
  simp [SignsIn]

@[simp] theorem signsIn_unsigned (c : Cpi) (k : Pubkey) : ¬SignsIn E [.invoke c none] k := by
  simp [SignsIn]

@[simp] theorem signsIn_write (k' : Pubkey) (d : Bytes) (k : Pubkey) :
    ¬SignsIn E [.write k' d] k := by
  simp [SignsIn]

@[simp] theorem signsIn_close (k' dest k : Pubkey) : ¬SignsIn E [.close k' dest] k := by
  simp [SignsIn]

@[simp] theorem signsIn_log (d : Bytes) (k : Pubkey) : ¬SignsIn E [.log d] k := by
  simp [SignsIn]

@[simp] theorem touchedIn_invoke (c : Cpi) (seeds : Option (List Bytes)) (k : Pubkey) :
    ¬TouchedIn [.invoke c seeds] k := by
  simp [TouchedIn]

@[simp] theorem touchedIn_write (k' : Pubkey) (d : Bytes) (k : Pubkey) :
    TouchedIn [.write k' d] k ↔ k = k' := by
  simp [TouchedIn]

@[simp] theorem touchedIn_close (k' dest k : Pubkey) :
    TouchedIn [.close k' dest] k ↔ k = k' := by
  simp [TouchedIn]

@[simp] theorem touchedIn_log (d : Bytes) (k : Pubkey) : ¬TouchedIn [.log d] k := by
  simp [TouchedIn]

/-- The frame of a whole sequence of acts, by induction on it. -/
theorem ran_frame (hw : Wellformed E) (hf : Confined E.host) (as : List Act)
    (h : Ran E as s s') : Frame E.host (SignsIn E as) (TouchedIn as) s s' := by
  induction as generalizing s with
  | nil =>
    cases h
    exact Frame.refl _ _ _ _
  | cons a as ih =>
    obtain ⟨s₁,ha,has⟩ := h
    refine Frame.trans ((effect_frame hw hf a ha).mono ?_ ?_) ((ih has).mono ?_ ?_)
    · exact fun k _ hk => (signsIn_cons a as k).mpr (.inl hk)
    · exact fun k hk => (touchedIn_cons a as k).mpr (.inl hk)
    · exact fun k _ hk => (signsIn_cons a as k).mpr (.inr hk)
    · exact fun k hk => (touchedIn_cons a as k).mpr (.inr hk)

/-- The addresses that do not sign in a sequence of acts keep what they hold. -/
theorem ran_holdings {held : Pubkey → Prop} (hw : Wellformed E) (hz : NoSeizureOf E.host held)
    (as : List Act) (h : Ran E as s s') : HoldingsOf E.host held (SignsIn E as) s s' := by
  induction as generalizing s with
  | nil =>
    cases h
    exact HoldingsOf.refl _ _ _ _
  | cons a as ih =>
    obtain ⟨s₁,ha,has⟩ := h
    apply HoldingsOf.trans ((effect_holdings hw hz a ha).mono ?_) ((ih has).mono ?_)
    · exact fun k _ hk => (signsIn_cons a as k).mpr (.inl hk)
    · exact fun k _ hk => (signsIn_cons a as k).mpr (.inr hk)

end Xete.Rules
