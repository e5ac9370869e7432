import XetePrograms.Tab.Counter

/-!
# The two builds of the settlement program

They differ in what they accept: one counts the accounts, the other one the
bytes and the lamports. Where both accept a call they leave the same ledger, so
runs that mix them can be told apart by nothing.
-/

set_option autoImplicit false

namespace Xete.Tab
open Xete.Octets Xete.Chain Xete.Runtime Xete.Rules
open Readable (Settlement)

def Accepts (x : Exec Unit) (s : Ledger) : Prop := ∃ s', Leaves x s s'

def succeeded (x : Exec Unit) (s : Ledger) : Bool :=
  match x ⟨s,[]⟩ with
  | .ok _ _ => true
  | .error _ _ => false

theorem accepts_iff (x : Exec Unit) (s : Ledger) : Accepts x s ↔ succeeded x s = true := by
  simp only [Accepts, Leaves, succeeded]
  constructor
  · rintro ⟨_,m,hm,-⟩
    rw [hm]
  · intro h
    cases hx : x ⟨s,[]⟩ with
    | ok u m => exact ⟨m.ledger,m,rfl,rfl⟩
    | error e m => rw [hx] at h; cases h

def ledgerAfter (x : Exec Unit) (s : Ledger) : Ledger :=
  match x ⟨s,[]⟩ with
  | .ok _ m => m.ledger
  | .error _ _ => s

theorem leaves_ledgerAfter {x : Exec Unit} {s : Ledger} (h : succeeded x s = true) :
    Leaves x s (ledgerAfter x s) := by
  unfold succeeded ledgerAfter at *
  cases hx : x ⟨s,[]⟩ with
  | ok u m => exact ⟨m,hx,rfl⟩
  | error e m => rw [hx] at h; cases h

instance (x : Exec Unit) (s : Ledger) : Decidable (Accepts x s) :=
  decidable_of_iff _ (accepts_iff x s).symm

def SharedChecks (E : Env) (s : Ledger) (b : Bytes) : Prop := ∃ s', Settled E s b s'

variable {E : Env} {s : Ledger}

theorem deployed_accepts (hs : SystemRules E.host) (b : Bytes) :
    Accepts (Deployed.process E b) s ↔ SharedChecks E s b ∧ ExactAccounts E b := by
  simp only [Accepts, SharedChecks, deployed_leaves hs, exists_and_right]

theorem readable_accepts (hs : SystemRules E.host) (b : Bytes) :
    Accepts (Readable.process E b) s ↔ SharedChecks E s b ∧ StrictInput E s b := by
  simp only [Accepts, SharedChecks, readable_leaves hs, exists_and_right]

/-- The builds agree on a call that passes the shared checks exactly when its
account list is exact where its bytes and lamports are. -/
theorem builds_accept_alike (hs : SystemRules E.host) (s : Ledger) (b : Bytes) :
    (Accepts (Deployed.process E b) s ↔ Accepts (Readable.process E b) s) ↔
      (SharedChecks E s b → (ExactAccounts E b ↔ StrictInput E s b)) := by
  rw [deployed_accepts hs, readable_accepts hs]
  tauto

open Counter in
theorem builds_accept_alike_deposit :
    SystemRules counter ∧
    ((Accepts (Deployed.process depositSees (depositData 2000000)) start ↔
        Accepts (Readable.process depositSees (depositData 2000000)) start) ↔
      (SharedChecks depositSees start (depositData 2000000) →
        (ExactAccounts depositSees (depositData 2000000) ↔
          StrictInput depositSees start (depositData 2000000)))) :=
  ⟨counter_systemRules,builds_accept_alike (E := depositSees) counter_systemRules start _⟩

open Counter in
/-- A deposit of one lamport passes the deployed build and not the readable one,
and an account or a byte too many passes one build only. -/
theorem builds_accept_differently :
    SystemRules counter ∧
    ¬(Accepts (Deployed.process depositSees (depositData 1)) start ↔
      Accepts (Readable.process depositSees (depositData 1)) start) ∧
    ¬(Accepts (Deployed.process (sees 0 depositor [settlementKey,systemId,beneficiary])
        (depositData 2000000)) start ↔
      Accepts (Readable.process (sees 0 depositor [settlementKey,systemId,beneficiary])
        (depositData 2000000)) start) :=
  ⟨counter_systemRules,by decide +kernel,by decide +kernel⟩

/-! ## Effects -/

inductive Build where
  | deployed
  | readable
  deriving DecidableEq

def Build.process : Build → Env → Bytes → Exec Unit
  | deployed => Deployed.process
  | readable => Readable.process

/-- Whatever build ran, its effect is the settled one. -/
theorem Build.settled {B : Build} {s' : Ledger} (hs : SystemRules E.host) {b : Bytes}
    (h : Leaves (B.process E b) s s') : Settled E s b s' := by
  cases B with
  | deployed => exact ((deployed_leaves hs b).mp h).1
  | readable => exact ((readable_leaves hs b).mp h).1

/-- The settled effect is a function of the call and the ledger. -/
theorem Settled.unique {b : Bytes} {s₁ s₂ : Ledger} (h₁ : Settled E s b s₁)
    (h₂ : Settled E s b s₂) : s₁ = s₂ := by
  cases h₁ with
  | deposit d a₁ a₂ a₃ r bump t _ hl ha hsg hp hc hw =>
    cases h₂ with
    | deposit _ b₁ b₂ b₃ r' bump' t' _ _ ha' _ hp' hc' hw' =>
      rw [ha] at ha'
      cases ha'
      rw [IsSettlement, hp] at hp'
      cases hp'
      rw [hc] at hc'
      cases hc'
      rw [hw] at hw'
      exact Option.some_inj.mp hw'
  | claim d a₁ a₂ r bump _ hl ha hsg hp ho hd hh hu hc =>
    cases h₂ with
    | claim _ b₁ b₂ r' bump' _ _ ha' _ _ _ _ _ _ hc' =>
      rw [ha] at ha'
      cases ha'
      rw [hc] at hc'
      exact Option.some_inj.mp hc'
  | reclaim d a₁ a₂ r bump _ hl ha hsg hp ho hd hk hc =>
    cases h₂ with
    | reclaim _ b₁ b₂ r' bump' _ _ ha' _ _ _ _ _ hc' =>
      rw [ha] at ha'
      cases ha'
      rw [hc] at hc'
      exact Option.some_inj.mp hc'

structure Turn where
  env : Env
  data : Bytes
  after : Ledger → Ledger

def Turn.Leads (t : Turn) (B : Build) (s s' : Ledger) : Prop :=
  ∃ s₁, Leaves (B.process t.env t.data) s s₁ ∧ s' = t.after s₁

def Counter.depositTurn : Turn := ⟨Counter.depositSees,Counter.depositData 2000000,id⟩

def Counter.claimTurn : Turn := ⟨Counter.claimSees,Counter.claimData,id⟩

def Leads : List (Build × Turn) → Ledger → Ledger → Prop
  | [], s, s' => s' = s
  | (B,t) :: ts, s, s' => ∃ s₁, t.Leads B s s₁ ∧ Leads ts s₁ s'

theorem Turn.leads_unique {t : Turn} (hs : SystemRules t.env.host) {B C : Build} {s₁ s₂ : Ledger}
    (h₁ : t.Leads B s s₁) (h₂ : t.Leads C s s₂) : s₁ = s₂ := by
  obtain ⟨u₁,h₁,rfl⟩ := h₁
  obtain ⟨u₂,h₂,rfl⟩ := h₂
  rw [Settled.unique (Build.settled hs h₁) (Build.settled hs h₂)]

theorem leads_unique {p q : List (Build × Turn)} (hpq : p.map Prod.snd = q.map Prod.snd)
    (hs : ∀ t ∈ p.map Prod.snd, SystemRules t.env.host) {s₁ s₂ : Ledger} (h₁ : Leads p s s₁)
    (h₂ : Leads q s s₂) : s₁ = s₂ := by
  induction p generalizing q s with
  | nil =>
    rw [List.map_nil, eq_comm, List.map_eq_nil_iff] at hpq
    rw [hpq] at h₂
    exact h₁.trans h₂.symm
  | cons x p ih =>
    obtain ⟨B,t⟩ := x
    cases q with
    | nil => cases hpq
    | cons y q =>
      obtain ⟨C,t'⟩ := y
      obtain ⟨rfl,htail⟩ := List.cons_eq_cons.mp hpq
      obtain ⟨u₁,ht₁,h₁⟩ := h₁
      obtain ⟨u₂,ht₂,h₂⟩ := h₂
      obtain rfl := Turn.leads_unique (hs t (by simp)) ht₁ ht₂
      exact ih htail (fun t ht => hs t (by simp [ht])) h₁ h₂

/-- The settlement that a deposit of either build leaves. -/
theorem deposit_record {B : Build} {s' : Ledger} (hs : SystemRules E.host) {d : Bytes}
    (h : Leaves (B.process E (0 :: d)) s s') :
    ∃ depositor settlement bump, E.accounts[0]? = some depositor ∧
      E.accounts[1]? = some settlement ∧
      (s' settlement.key).data = newSettlement depositor.key d bump ∧ SettlementSized E s' := by
  cases Build.settled hs h with
  | deposit _ depositor settlement system rest bump s₁ _ hl ha hsg hp hc hw =>
    simp only [Act.effect] at hw
    split at hw
    · cases hw
      refine ⟨depositor,settlement,bump,by rw [ha]; rfl,by rw [ha]; rfl,setData_same ..,?_⟩
      intro a h₁
      rw [ha] at h₁
      cases h₁
      rw [setData_same, newSettlement_length _ _ _ hl]
    · cases hw

/-- A claim or reclaim of a settlement of 81 bytes with exact accounts and an
exact payload does the same in both builds. -/
theorem payout_alike {s' : Ledger} (hs : SystemRules E.host) {b : Bytes}
    (hz : SettlementSized E s) (ha : E.accounts.length = 2) (hb : (instructionAt b).isSome = true)
    (ht : b.head? ≠ some 0) :
    Leaves (Deployed.process E b) s s' ↔ Leaves (Readable.process E b) s s' := by
  rw [deployed_leaves hs, readable_leaves hs]
  have hx : Settled E s b s' → (ExactAccounts E b ↔ StrictInput E s b) := by
    intro h
    cases h with
    | deposit => simp at ht
    | claim d _ _ _ _ _ hl =>
      have hl' : d.length = 36+saltLen d := by
        simp only [instructionAt] at hb
        split at hb
        · rename_i hc
          exact hc.2
        · cases hb
      exact ⟨fun _ => ⟨hl',hz⟩,fun _ => ha⟩
    | reclaim => exact ⟨fun _ => hz,fun _ => ha⟩
  exact and_congr_right hx

/-- Calls that both builds accept have one effect, and so have whole runs of
them, by whichever builds; the bytes written by hand are the encoding of the
settlement, the fields at the offsets its decoding, and what either build has
deposited both pay out alike. -/
theorem builds_same_effects {H : Host} (hs : SystemRules H) :
    (∀ (E : Env) (b : Bytes) (s s₁ s₂ : Ledger), E.host = H →
      Leaves (Deployed.process E b) s s₁ → Leaves (Readable.process E b) s s₂ → s₁ = s₂) ∧
    (∀ (p q : List (Build × Turn)) (s s₁ s₂ : Ledger), p.map Prod.snd = q.map Prod.snd →
      (∀ t ∈ p.map Prod.snd, t.env.host = H) → Leads p s s₁ → Leads q s s₂ → s₁ = s₂) ∧
    (∀ (t : Settlement) (b : Bytes), t.Valid → b.length = 81 →
      patches b (Deployed.settlementFields t.depositor t.amount t.beneficiaryCommitment
        t.unlockTime t.bump) = Settlement.codec.encode t) ∧
    (∀ b : Bytes, b.length = Deployed.stateLen → Settlement.codec.fromSlice b =
      some ⟨keyAt b Deployed.oDepositor,u64At b Deployed.oAmount,slice b Deployed.oCommit 32,
        i64At b Deployed.oUnlock,byteAt b Deployed.oBump⟩) ∧
    (∀ (E : Env) (B : Build) (d : Bytes) (s s' : Ledger), E.host = H →
      Leaves (B.process E (0 :: d)) s s' →
        ∃ depositor settlement bump, E.accounts[0]? = some depositor ∧
          E.accounts[1]? = some settlement ∧
          (s' settlement.key).data = newSettlement depositor.key d bump ∧ SettlementSized E s') ∧
    ∀ (E : Env) (b : Bytes) (s s' : Ledger), E.host = H → SettlementSized E s →
      E.accounts.length = 2 → (instructionAt b).isSome = true → b.head? ≠ some 0 →
        (Leaves (Deployed.process E b) s s' ↔ Leaves (Readable.process E b) s s') := by
  refine ⟨?_,?_,?_,?_,?_,?_⟩
  · rintro E b s s₁ s₂ rfl h₁ h₂
    exact Settled.unique (Build.settled (B := .deployed) hs h₁)
      (Build.settled (B := .readable) hs h₂)
  · intro p q s s₁ s₂ hpq hh h₁ h₂
    exact leads_unique hpq (fun t ht => by rw [hh t ht]; exact hs) h₁ h₂
  · exact fun t b ht hb => patches_encode t b ht hb
  · exact fun b hb => (settlement_fromSlice b _).mpr ⟨hb,rfl⟩
  · rintro E B d s s' rfl h
    exact deposit_record hs h
  · rintro E b s s' rfl hz ha hb ht
    exact payout_alike hs hz ha hb ht

open Counter in
/-- A deposit by one build and the claim by the other one, both ways round. -/
theorem builds_same_effects_claim :
    ∃ s₁ s₂, Leads [(.deployed,depositTurn),(.readable,claimTurn)] start s₁ ∧
      Leads [(.readable,depositTurn),(.deployed,claimTurn)] start s₂ ∧ s₁ = s₂ := by
  obtain ⟨s₁,h₁⟩ : ∃ s₁, Leads [(.deployed,depositTurn),(.readable,claimTurn)] start s₁ :=
    ⟨_,_,⟨_,leaves_ledgerAfter (by decide +kernel),rfl⟩,_,
      ⟨_,leaves_ledgerAfter (by decide +kernel),rfl⟩,rfl⟩
  obtain ⟨s₂,h₂⟩ : ∃ s₂, Leads [(.readable,depositTurn),(.deployed,claimTurn)] start s₂ :=
    ⟨_,_,⟨_,leaves_ledgerAfter (by decide +kernel),rfl⟩,_,
      ⟨_,leaves_ledgerAfter (by decide +kernel),rfl⟩,rfl⟩
  refine ⟨s₁,s₂,h₁,h₂,(builds_same_effects counter_systemRules).2.1 _ _ _ _ _ ?_ ?_ h₁ h₂⟩
  · simp only [List.map_cons, List.map_nil]
  · intro t ht
    simp only [List.map_cons, List.map_nil, List.mem_cons, List.not_mem_nil, or_false] at ht
    rcases ht with rfl | rfl <;> rfl

end Xete.Tab
