import XetePrograms.Swap.BasketRecord
import XetePrograms.Swap.Reach

/-!
# What a call does to the records

A call opens one record, closes the records that it consumes, re-keys one
basket, or leaves every record alone. `Outcome.ends` says so once for all
instructions; what runs keep of the records follows from it.
-/

set_option autoImplicit false

namespace Xete.Swap
open Xete.Octets Xete.Weakest Xete.Chain Xete.Token Xete.Runtime Xete.Rules

variable {E : Env} {m m₁ m' : Machine} {d : Bytes} {tag : UInt8} {k : Pubkey} {p : Place}
  {as bs : List Act} {K : Pubkey → Prop}

/-! ## Records -/

/-- The party whose signature opens a record at the place; the other places
hold no records. -/
def Place.party : Place → Option Pubkey
  | .swap maker _ => some maker
  | .listing maker _ => some maker
  | .offer offerer _ => some offerer
  | .basket maker _ => some maker
  | _ => none

structure RestedHolds (maker : Pubkey) (nonce b : Bytes) : Prop where
  length : b.length = swapLen
  maker : keyAt b sMaker = maker
  isOpen : byteAt b sStatus = statusOpen
  amount : u64At b sGiveAmt ≠ 0
  nonce : slice b sNonce 32 = nonce

structure OfferHolds (offerer : Pubkey) (nonce b : Bytes) : Prop where
  length : b.length = offerLen
  offerer : keyAt b oOfferer = offerer
  isOpen : byteAt b oStatus = statusOpen
  nonce : slice b oNonce 32 = nonce

structure BasketHolds (maker : Pubkey) (nonce b : Bytes) : Prop where
  length : b.length = basketLen
  maker : keyAt b bMaker = maker
  gives : (byteAt b bGiveCount).toNat ≤ maxLeg
  isOpen : byteAt b bStatus = statusOpen
  nonce : slice b bNonce 32 = nonce

def Place.Holds : Place → Bytes → Prop
  | .swap maker nonce, b => RestedHolds maker nonce b ∧ byteAt b sRoyaltyMode = royaltyNone
  | .listing maker nonce, b => RestedHolds maker nonce b
  | .offer offerer nonce, b => OfferHolds offerer nonce b
  | .basket maker nonce, b => BasketHolds maker nonce b
  | _, _ => False

/-- Every record begins with its party. -/
theorem Place.Holds.party {b : Bytes} (h : p.Holds b) : p.party = some (keyAt b 0) := by
  cases p with
  | swap => exact congrArg some h.1.maker.symm
  | listing => exact congrArg some (RestedHolds.maker h).symm
  | offer => exact congrArg some (OfferHolds.offerer h).symm
  | basket => exact congrArg some (BasketHolds.maker h).symm
  | _ => exact h.elim

/-! ## Acts and records -/

structure Names (E : Env) (as : List Act) (K : Pubkey → Prop) : Prop where
  signs : ∀ j, SignsIn E as j → K j ∨ ∃ q : Place, q.party = none ∧ q.At E.host j
  changes : ∀ j, TouchedIn as j → K j ∨ ∃ q : Place, q.party = none ∧ q.At E.host j

def Act.Opens (k : Pubkey) : Act → Prop
  | .invoke (.createAccount _ acct _ _ _) _ => acct = k
  | _ => False

instance (k : Pubkey) (a : Act) : Decidable (Act.Opens k a) := by
  unfold Act.Opens
  split <;> infer_instance

def openings (k : Pubkey) (as : List Act) : ℕ := as.countP fun a => decide (Act.Opens k a)

def closings (k : Pubkey) (as : List Act) : ℕ := as.countP fun a => decide (Act.Closes k a)

@[simp] theorem openings_append (k : Pubkey) (as bs : List Act) :
    openings k (as ++ bs) = openings k as+openings k bs := List.countP_append

@[simp] theorem closings_append (k : Pubkey) (as bs : List Act) :
    closings k (as ++ bs) = closings k as+closings k bs := List.countP_append

theorem closings_untouched (h : ¬TouchedIn as k) : closings k as = 0 := by
  apply List.countP_eq_zero.mpr
  intro a ha
  cases a with
  | close a dest =>
    rw [decide_eq_true_eq]
    rintro rfl
    exact h (.inr ⟨dest,ha⟩)
  | _ => exact Bool.false_ne_true

/-- An address of the program signs an invocation by its seeds only. -/
theorem invoke_signer {c : Cpi} {seeds : Option (List Bytes)} {s s' : Ledger} (hw : Wellformed E)
    (hk : E.host.IsPda k) (hm : k ∈ c.signers) (h : (Act.invoke c seeds).effect E s = some s') :
    ∃ ss, seeds = some ss ∧ E.host.createProgramAddress ss E.programId = some k := by
  simp only [Act.effect] at h
  split at h
  · rename_i hp
    rcases E.permits_signer _ _ hp k hm with ⟨a,ha,hak,hs⟩ | hs
    · exact (hw.signers a ha hs (hak ▸ hk)).elim
    · cases seeds with
      | none => cases hs
      | some ss => exact ⟨ss,rfl,hs⟩
  · cases h

theorem did_mem {a : Act} (hd : Did E as m m') (ha : a ∈ as) : ∃ s s', a.effect E s = some s' := by
  induction as generalizing m with
  | nil => cases ha
  | cons b as ih =>
    obtain ⟨s,hs,hd⟩ := hd
    rcases List.mem_cons.mp ha with rfl | ha
    · exact ⟨_,s,hs⟩
    · exact ih hd ha

/-- An address of the program is created only by its own signature. -/
theorem openings_unsigned (hw : Wellformed E) (hk : E.host.IsPda k) (hd : Did E as m m')
    (hn : ¬SignsIn E as k) : openings k as = 0 := by
  apply List.countP_eq_zero.mpr
  intro a ha hopen
  rw [decide_eq_true_eq] at hopen
  unfold Act.Opens at hopen
  split at hopen
  · subst hopen
    obtain ⟨s,s',he⟩ := did_mem hd ha
    obtain ⟨ss,rfl,hss⟩ := invoke_signer hw hk (by simp [Cpi.signers, Cpi.metas, payingFor]) he
    exact hn ⟨_,ss,ha,hss⟩
  · exact hopen

/-- What acts leave of an account of the program: it stays one, is not created
again, and keeps lamports unless it is closed. -/
structure Kept (k : Pubkey) (as : List Act) (m m' : Machine) (program : Pubkey) : Prop where
  owner : (m'.ledger k).owner = program
  created : openings k as = 0
  lamports : closings k as = 0 → 0 < (m.ledger k).lamports → 0 < (m'.ledger k).lamports

theorem effect_owned {a : Act} {s s' : Ledger} (hs : SystemRules E.host) (hw : Wellformed E)
    (hf : Confined E.host) (ho : (s k).owner = E.programId) (h : a.effect E s = some s') :
    (s' k).owner = E.programId ∧ ¬Act.Opens k a ∧
      (¬Act.Closes k a → (s k).lamports ≤ (s' k).lamports) := by
  have hfr := effect_frame hw hf a h
  cases a with
  | invoke c seeds =>
    obtain ⟨ho',-,hl⟩ := hfr.owned k ho (touchedIn_invoke _ _ _)
    refine ⟨ho',?_,fun _ => hl⟩
    intro hopen
    unfold Act.Opens at hopen
    split at hopen
    · rename_i heq
      cases heq
      subst hopen
      simp only [Act.effect] at h
      split at h
      · exact hw.notSystem (ho.symm.trans (hs.create _ _ _ _ _ _ _ h).1.1)
      · cases h
    · exact hopen
  | write a d =>
    simp only [Act.effect] at h
    split at h
    · cases h
      simp [ho, Act.Opens]
    · cases h
  | close a dest =>
    simp only [Act.effect] at h
    split at h
    · cases h
      exact ⟨by simpa using ho,id,fun hne => (drain_other _ _ _ _ fun h => hne h.symm).2⟩
    · cases h
  | log d =>
    cases h
    exact ⟨ho,id,fun _ => Nat.le_refl _⟩

theorem did_owned (hs : SystemRules E.host) (hw : Wellformed E) (hf : Confined E.host)
    (ho : (m.ledger k).owner = E.programId) (hd : Did E as m m') : Kept k as m m' E.programId := by
  induction as generalizing m with
  | nil =>
    rw [did_nil] at hd
    rw [hd]
    exact ⟨ho,rfl,fun _ h => h⟩
  | cons a as ih =>
    obtain ⟨s,he,hd⟩ := hd
    obtain ⟨ho',hopen,hl⟩ := effect_owned hs hw hf ho he
    obtain ⟨h₁,h₂,h₃⟩ := ih ho' hd
    refine ⟨h₁,?_,fun hc hpos => ?_⟩
    · rw [openings, List.countP_cons_of_neg (by simpa using hopen)]
      exact h₂
    · by_cases ha : Act.Closes k a
      · rw [closings, List.countP_cons_of_pos (by simpa using ha)] at hc
        omega
      · rw [closings, List.countP_cons_of_neg (by simpa using ha)] at hc
        exact h₃ hc (hpos.trans_le (hl ha))

def Place.IsPost : Place → Prop
  | .swap .. => True
  | .listing .. => True
  | _ => False

/-- What a call did to the record at `k`, one of those it names. A post that is
opened is announced. -/
inductive RecordEnd (E : Env) (d : Bytes) (as : List Act) (m m' : Machine) (k : Pubkey) : Prop
  | opened (p : Place) (party payer : Pubkey) (space : ℕ) (seeds : List Bytes) (rest : List Act)
      (b : Bytes) (hk : p.At E.host k) (hp : p.party = some party) (signed : E.signed party)
      (first : as = createAct E payer k space E.programId seeds :: rest)
      (never : closings k as = 0) (holds : p.Holds b) (stores : Stores E k b m')
      (announced : p.IsPost → ∃ e, .log e ∈ as)
  | closed (p : Place) (hk : p.At E.host k) (owner : (m.ledger k).owner = E.programId)
      (party : p.party = some (keyAt (m.ledger k).data 0)) (once : closings k as = 1)
      (wiped : Stores E k (zeros (m.ledger k).data.length) m')
  | rekeyed (maker bearer : Pubkey) (nonce : Bytes) (hk : (Place.basket maker nonce).At E.host k)
      (maker_eq : keyAt (m.ledger k).data bMaker = maker) (never : closings k as = 0)
      (h : Rewrapped E d m m' k bearer)

/-- The close of a record leaves zeros. -/
theorem close_wipes {pre post : List Act} {dest : Pubkey} (hw : Wellformed E) (hf : Confined E.host)
    (hd : Did E (pre ++ .close k dest :: post) m m') (hpre : ¬TouchedIn pre k)
    (hpost : ¬TouchedIn post k) (ho : (m.ledger k).owner = E.programId) :
    Stores E k (zeros (m.ledger k).data.length) m' := by
  obtain ⟨m₁,h₁,s,hs,h₂⟩ := (did_append _ _ m m').mp hd
  have hst : Stores E k (m.ledger k).data m₁ := Stores.did hw hf ⟨ho,rfl⟩ h₁ hpre
  refine Stores.did hw hf ?_ h₂ hpost
  simp only [Act.effect] at hs
  split at hs
  · cases hs
    simp [Stores, drain, hst.1, hst.2]
  · cases hs

theorem ends_closed {pre post : List Act} {dest : Pubkey} (hw : Wellformed E) (hf : Confined E.host)
    (hd : Did E (pre ++ .close k dest :: post) m m') (hpre : ¬TouchedIn pre k)
    (hpost : ¬TouchedIn post k) (hk : p.At E.host k) (ho : (m.ledger k).owner = E.programId)
    (hp : p.party = some (keyAt (m.ledger k).data 0)) :
    RecordEnd E d (pre ++ .close k dest :: post) m m' k := by
  refine .closed p hk ho hp ?_ (close_wipes hw hf hd hpre hpost ho)
  have hone : closings k (Act.close k dest :: post) = 1 := by
    rw [closings, List.countP_cons_of_pos (by simp [Act.Closes])]
    exact congrArg (·+1) (closings_untouched hpost)
  rw [closings_append, closings_untouched hpre, hone]

theorem ends_opened (mid : List Act) {party payer : Pubkey} {space : ℕ} {seeds : List Bytes}
    {b : Bytes} (hd : Did E
      (createAct E payer k space E.programId seeds :: (mid ++ [.write k b])) m m')
    (hmid : ¬TouchedIn mid k) (hk : p.At E.host k) (hp : p.party = some party)
    (hsign : E.signed party) (hb : p.Holds b) (hlog : p.IsPost → ∃ e, .log e ∈ mid) :
    RecordEnd E d (createAct E payer k space E.programId seeds :: (mid ++ [.write k b])) m
      m' k := by
  obtain ⟨s₁,h₁,hrest⟩ := hd
  obtain ⟨m₁,-,s₂,h₂,rfl⟩ := (did_append _ _ _ _).mp hrest
  refine .opened p party payer space seeds _ b hk hp hsign rfl ?_ hb (effect_write_stores h₂)
    fun hpost => (hlog hpost).imp fun e he => by simp [he]
  have hz : closings k [createAct E payer k space E.programId seeds] = 0 := rfl
  have hl : closings k [.write k b] = 0 := rfl
  rw [← List.singleton_append, closings_append, closings_append, closings_untouched hmid, hz, hl]

def Ends (E : Env) (d : Bytes) (m m' : Machine) : Prop :=
  ∃ as K, Did E as m m' ∧ Names E as K ∧ ∀ k, K k → RecordEnd E d as m m' k

/-- Acts on one record. -/
theorem ends_one (hd : Did E as m m')
    (hs : ∀ j, SignsIn E as j → j = k ∨ ∃ q : Place, q.party = none ∧ q.At E.host j)
    (ht : ∀ j, TouchedIn as j → j = k) (he : RecordEnd E d as m m' k) : Ends E d m m' :=
  ⟨as,(· = k),hd,⟨hs,fun j hj => .inl (ht j hj)⟩,fun _ hj => hj ▸ he⟩

/-- Acts on no record. -/
theorem ends_none (hd : Did E as m m')
    (hs : ∀ j, SignsIn E as j → ∃ q : Place, q.party = none ∧ q.At E.host j)
    (ht : ∀ j, TouchedIn as j → ∃ q : Place, q.party = none ∧ q.At E.host j) : Ends E d m m' :=
  ⟨as,fun _ => False,hd,⟨fun j hj => .inr (hs j hj),fun j hj => .inr (ht j hj)⟩,fun _ hj => hj.elim⟩

/-- Acts that end in the close of one record, and touch nothing before. -/
theorem ends_closer (p : Place) {pre : List Act} {dest : Pubkey} (hw : Wellformed E)
    (hf : Confined E.host) (hd : Did E (pre ++ [.close k dest]) m m')
    (hs : ∀ j, SignsIn E pre j → j = k ∨ ∃ q : Place, q.party = none ∧ q.At E.host j)
    (ht : ∀ j, ¬TouchedIn pre j) (hk : p.At E.host k) (ho : (m.ledger k).owner = E.programId)
    (hp : p.party = some (keyAt (m.ledger k).data 0)) : Ends E d m m' := by
  refine ends_one hd ?_ ?_ (ends_closed hw hf hd (ht k) (by simp) hk ho hp)
  · intro j hj
    rw [signsIn_append] at hj
    exact hj.elim (hs j) fun hj => (signsIn_close _ _ _ hj).elim
  · intro j hj
    rw [touchedIn_append] at hj
    exact hj.elim (fun hj => (ht j hj).elim) (touchedIn_close _ _ _).mp

theorem address_unique {seeds : List Bytes} {j : Pubkey}
    (hj : E.host.createProgramAddress seeds E.programId = some j)
    (hk : E.host.createProgramAddress seeds E.programId = some k) : j = k :=
  Option.some_inj.mp (hj.symm.trans hk)

end Xete.Swap
