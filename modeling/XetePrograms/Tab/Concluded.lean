import XetePrograms.Tab.Safety

/-!
# What the book allows

In every reachable state the book decides which claims and reclaims are
accepted, although the program sees bytes only. An open deposit stays payable,
with its whole amount, until it is paid out.
-/

set_option autoImplicit false

namespace Xete.Tab
open Xete.Octets Xete.Chain Xete.Runtime Xete.Rules
open Xete.Swap (reap bumped)

variable {H : Host} {E : Env} {s s' : Ledger} {b b' : Book} {k : Pubkey} {p : Deposit} {n : ℕ}
  {a : Action} {d : Bytes}

structure PayoutSlots (E : Env) (s : Ledger) (d : Bytes) (payee settlement : AccountInfo) :
    Prop where
  accounts : E.accounts = [payee,settlement]
  signs : payee.isSigner = true
  address : ∃ bump, IsSettlement E.host (slice d 0 32) settlement.key bump
  source : E.writable settlement.key
  dest : E.writable payee.key
  room : (s payee.key).lamports+(s settlement.key).lamports ≤ u64Max

def MayClaim (E : Env) (s : Ledger) (b : Book) (d : Bytes) : Prop :=
  ∃ payee settlement n p, PayoutSlots E s d payee settlement ∧ 36+saltLen d ≤ d.length ∧
    b.opened settlement.key = some (n,p) ∧
    (E.host.hash (payee.key.bytes ++ slice d 36 (saltLen d))).bytes = p.commitment ∧
    p.unlockTime ≤ E.clock

def MayReclaim (E : Env) (s : Ledger) (b : Book) (d : Bytes) : Prop :=
  ∃ payee settlement n p, PayoutSlots E s d payee settlement ∧ d.length = 32 ∧
    b.opened settlement.key = some (n,p) ∧ payee.key = p.depositor

/-- Nothing lies at the address of the new settlement, and the wallet that signs
can pay. -/
def MayDeposit (E : Env) (s : Ledger) (d : Bytes) : Prop :=
  ∃ depositor settlement system, E.accounts = [depositor,settlement,system] ∧ d.length = 80 ∧
    depositor.isSigner = true ∧ (∃ bump, IsSettlement E.host (slice d 0 32) settlement.key bump) ∧
    (∃ x ∈ E.accounts, x.key = systemId) ∧ E.writable depositor.key ∧ E.writable settlement.key ∧
    Vacant s settlement.key ∧ (s settlement.key).lamports = 0 ∧
    u64At d 32 ≤ (s depositor.key).lamports

/-! ## The calls, against the book -/

theorem accepts_claim (hs : SystemRules H) (hz : ∀ x, H.hash x ≠ zeroKey) (h : Tracks H s b)
    (ho : On H E) : Accepts (Deployed.process E (1 :: d)) s ↔ MayClaim E s b d := by
  have hs' : SystemRules E.host := by rw [ho.host]; exact hs
  rw [deployed_accepts hs']
  constructor
  · rintro ⟨⟨s',hset⟩,hx⟩
    obtain ⟨dest,settlement,n,p,ha,hb,hpay,-⟩ := h.pays ho hz (by decide) hset hx
    cases hset with
    | claim _ payee settlement' rest bump _ hl ha' hsg hp hown hd hh hu hc =>
      rw [ha] at ha'
      cases ha'
      cases hpay with
      | claim _ x y ha'' hk hs'' hcom hunl hsw =>
        rw [ha] at ha''
        cases ha''
        obtain ⟨hwk,hwd⟩ := close_needs hc
        exact ⟨dest,settlement,n,p,⟨ha,hsg,⟨bump,hp⟩,hwk,hwd,close_fits _ _ hc⟩,hl,hb,hcom,hunl⟩
  · rintro ⟨payee,settlement,n,p,hslots,hl,hb,hcom,hunl⟩
    obtain ⟨ha,hsg,⟨bump,hp⟩,hwk,hwd,hroom⟩ := hslots
    obtain ⟨hown,hlen,-,-,hcommit,hunlock⟩ := h.opened _ n p hb
    have hown' : (s settlement.key).owner = E.programId := by rw [hown, Env.programId, ho.host]
    have hne : settlement.key ≠ payee.key :=
      ho.ne (by simp [ha]) hsg (by rw [← ho.host]; exact hp.isPda)
    refine ⟨⟨_,.claim d payee settlement [] bump _ hl ha hsg hp hown' (by omega) ?_ ?_
      (close_effect hown' hwk hwd hne hroom)⟩,by simp [ExactAccounts, ha]⟩
    · rw [hcom, ← hcommit]
      rfl
    · rw [← hunlock] at hunl
      exact hunl

theorem accepts_reclaim (hs : SystemRules H) (hz : ∀ x, H.hash x ≠ zeroKey) (h : Tracks H s b)
    (ho : On H E) : Accepts (Deployed.process E (2 :: d)) s ↔ MayReclaim E s b d := by
  have hs' : SystemRules E.host := by rw [ho.host]; exact hs
  rw [deployed_accepts hs']
  constructor
  · rintro ⟨⟨s',hset⟩,hx⟩
    obtain ⟨dest,settlement,n,p,ha,hb,hpay,-⟩ := h.pays ho hz (by decide) hset hx
    cases hset with
    | reclaim _ payee settlement' rest bump _ hl ha' hsg hp hown hd hk hc =>
      rw [ha] at ha'
      cases ha'
      cases hpay with
      | reclaim _ x y ha'' hk' hs'' hdep hsw =>
        rw [ha] at ha''
        cases ha''
        obtain ⟨hwk,hwd⟩ := close_needs hc
        exact ⟨dest,settlement,n,p,⟨ha,hsg,⟨bump,hp⟩,hwk,hwd,close_fits _ _ hc⟩,hl,hb,hdep⟩
  · rintro ⟨payee,settlement,n,p,hslots,hl,hb,hdep⟩
    obtain ⟨ha,hsg,⟨bump,hp⟩,hwk,hwd,hroom⟩ := hslots
    obtain ⟨hown,hlen,hdepositor,-⟩ := h.opened _ n p hb
    have hown' : (s settlement.key).owner = E.programId := by rw [hown, Env.programId, ho.host]
    have hne : settlement.key ≠ payee.key :=
      ho.ne (by simp [ha]) hsg (by rw [← ho.host]; exact hp.isPda)
    refine ⟨⟨_,.reclaim d payee settlement [] bump _ hl ha hsg hp hown' (by omega) ?_
      (close_effect hown' hwk hwd hne hroom)⟩,by simp [ExactAccounts, ha]⟩
    rw [hdep]
    exact hdepositor

theorem accepts_deposit (hs : SystemRules H) (hacc : SystemAccepts H) (hbal : SystemBalances H)
    (ho : On H E) (hwallet : ∀ x, E.accounts[0]? = some x → Vacant s x.key) :
    Accepts (Deployed.process E (0 :: d)) s ↔ MayDeposit E s d := by
  obtain ⟨rfl,hw,-⟩ := ho
  rw [deployed_accepts hs]
  constructor
  · rintro ⟨⟨s',hset⟩,hx⟩
    cases hset with
    | deposit _ depositor settlement system rest bump s₁ _ hl ha hsg hp hc hwr =>
      obtain rfl : rest = [] := by
        simp only [ExactAccounts, ha, List.length_cons] at hx
        exact List.eq_nil_of_length_eq_zero (by omega)
      have hne : depositor.key ≠ settlement.key := by
        intro he
        exact hw.signers depositor (by simp [ha]) hsg (he ▸ hp.isPda)
      obtain ⟨hv,hzero,-⟩ := created_empty hs hc
      simp only [createAct, Act.effect] at hc
      split at hc
      · rename_i hperm
        obtain ⟨-,hsys,-,hmetas⟩ := hperm
        have hpay := hbal.create _ _ _ _ _ _ _ hne hc
        have hwd := (hmetas (payingFor depositor.key) (by simp [Cpi.metas])).2 rfl
        have hwk := (hmetas (payingFor settlement.key) (by simp [Cpi.metas])).2 rfl
        exact ⟨depositor,settlement,system,ha,hl,hsg,⟨bump,hp⟩,hsys,hwd,hwk,hv,hzero,by omega⟩
      · cases hc
  · rintro ⟨depositor,settlement,system,ha,hl,hsg,⟨bump,hp⟩,hsys,hwd,hwk,hv,hzero,hpay⟩
    have hne : depositor.key ≠ settlement.key := by
      intro he
      exact hw.signers depositor (by simp [ha]) hsg (he ▸ hp.isPda)
    have hsign : E.host.createProgramAddress (bumped (seeds (slice d 0 32)) bump) E.programId =
        some settlement.key := E.host.find_create _ _ _ _ hp
    have hperm : E.permits (.createAccount depositor.key settlement.key (u64At d 32) 81 E.programId)
        (some (bumped (seeds (slice d 0 32)) bump)) := by
      refine ⟨hw.notSystem.symm,hsys,fun _ => by simp [Env.pdaSigner, hsign],?_⟩
      intro x hx
      simp only [Cpi.metas, List.mem_cons, List.not_mem_nil, or_false] at hx
      rcases hx with rfl | rfl
      · exact ⟨fun _ => .inl ⟨depositor,by simp [ha],rfl,hsg⟩,fun _ => hwd⟩
      · exact ⟨fun _ => .inr hsign,fun _ => hwk⟩
    have hcreate := hacc.create depositor.key settlement.key (u64At d 32) 81 E.programId s hv
      hzero hne (hwallet depositor (by simp [ha])) hpay
    have hcreated : (withAccount s depositor.key settlement.key (u64At d 32) 81 E.programId)
        settlement.key = ⟨u64At d 32,E.programId,zeros 81⟩ := Function.update_self ..
    refine ⟨⟨setData (withAccount s depositor.key settlement.key (u64At d 32) 81 E.programId)
      settlement.key (newSettlement depositor.key d bump),
      .deposit d depositor settlement system [] bump
        (withAccount s depositor.key settlement.key (u64At d 32) 81 E.programId) _ hl ha hsg
        hp ?_ ?_⟩,
      by simp [ExactAccounts, ha]⟩
    · simp only [createAct, Act.effect]
      rw [if_pos hperm, hcreate]
    · simp only [Act.effect]
      rw [hcreated, if_pos ⟨rfl,hwk,by rw [newSettlement_length _ _ _ hl, zeros_length]⟩]

/-! ## Runs -/

theorem run_tracks (hs : SystemRules H) (hn : H.programId ≠ systemId) (hz : ∀ x, H.hash x ≠ zeroKey)
    {x y : Ledger × Book} (h : Run H x y) (hx : Tracks H x.1 x.2) : Tracks H y.1 y.2 := by
  induction h with
  | refl => exact hx
  | tail _ hstep ih =>
    obtain ⟨a,ha,hbk⟩ := hstep
    exact hbk ▸ (step_safe hs hn hz ih ha).1

/-- What an open deposit has besides its bytes: its address is that of an id,
and the account holds its amount. -/
structure Funded (H : Host) (s : Ledger) (b : Book) : Prop where
  address : ∀ k n p, b.opened k = some (n,p) → ∃ settlementId bump,
    IsSettlement H settlementId k bump
  amount : ∀ k n p, b.opened k = some (n,p) → p.amount ≤ (s k).lamports

theorem funded_empty : Funded H s Book.empty where
  address k n p h := by cases h
  amount k n p h := by cases h

theorem pay_opened (h : (b.pay k).opened = b'.opened) (j : Pubkey) (x : ℕ × Deposit)
    (hx : b'.opened j = some x) : b.opened j = some x := by
  rw [← h] at hx
  unfold Book.pay at hx
  split at hx
  · by_cases hj : j = k
    · subst hj
      simp at hx
    · simpa only [Function.update_of_ne hj] using hx
  · exact hx

/-- A deposit in the book after a step was there before, unless the step is the
deposit of it. -/
theorem after_opened (h : (b.after s a).opened k = some (n,p)) :
    b.opened k = some (n,p) ∨ ∃ E d depositor settlement rest, a = .call E (0 :: d) ∧
      E.accounts = depositor :: settlement :: rest ∧ settlement.key = k ∧
        p.amount = u64At d 32 := by
  unfold Book.after at h
  split at h
  · rename_i E d
    split at h
    · rename_i depositor settlement rest ha
      by_cases hk : k = settlement.key
      · subst hk
        simp only [Book.deposit, Function.update_self, Option.some.injEq, Prod.mk.injEq] at h
        obtain ⟨-,rfl⟩ := h
        exact .inr ⟨E,d,depositor,settlement,rest,rfl,ha,rfl,rfl⟩
      · simp only [Book.deposit, Function.update_of_ne hk] at h
        exact .inl h
    · exact .inl h
  · split at h
    · exact .inl (pay_opened rfl k (n,p) h)
    · exact .inl h
  · exact .inl h
  · simp only [Book.drop] at h
    split at h
    · cases h
    · exact .inl h

/-- Nothing is struck from the list of the paid ones. -/
theorem after_paid (h : n ∈ b.paid) : n ∈ (b.after s a).paid := by
  have hpay : ∀ k, n ∈ (b.pay k).paid := by
    intro k
    unfold Book.pay
    split
    · exact List.mem_cons_of_mem _ h
    · exact h
  unfold Book.after
  split
  · split <;> exact h
  · split
    · exact hpay _
    · exact h
  · exact h
  · exact h

theorem deposit_funds (hs : SystemRules H) (ho : On H E) {depositor settlement : AccountInfo}
    {rest : List AccountInfo} (ha : E.accounts = depositor :: settlement :: rest)
    (h : Leaves (Deployed.process E (0 :: d)) s s') :
    (∃ bump, IsSettlement H (slice d 0 32) settlement.key bump) ∧
      (s' settlement.key).lamports = u64At d 32 := by
  obtain ⟨rfl,hw,-⟩ := ho
  have hset := ((deployed_leaves hs _).mp h).1
  cases hset with
  | deposit _ depositor' settlement' system rest' bump s₁ _ hl ha' hsg hp hc hwr =>
    rw [ha] at ha'
    cases ha'
    obtain ⟨-,-,hnew⟩ := created_empty hs hc
    simp only [Act.effect] at hwr
    split at hwr
    · cases hwr
      exact ⟨⟨bump,hp⟩,by rw [setData_lamports, hnew]⟩
    · cases hwr

theorem Funded.step (hs : SystemRules H) (hn : H.programId ≠ systemId)
    (hz : ∀ x, H.hash x ≠ zeroKey) (h : Funded H s b) (ht : Tracks H s b) (hstep : Step H a s s') :
    Funded H s' (b.after s a) := by
  have hsafe := (step_safe hs hn hz ht hstep).2
  have hnew : ∀ {E d depositor settlement rest}, a = .call E (0 :: d) →
      E.accounts = depositor :: settlement :: rest →
      (∃ bump, IsSettlement H (slice d 0 32) settlement.key bump) ∧
        (s' settlement.key).lamports = u64At d 32 := by
    rintro E d depositor settlement rest rfl ha
    cases hstep with
    | call _ _ _ _ ho hc => exact deposit_funds hs ho ha hc
  constructor
  · intro k n p hk
    rcases after_opened hk with hk | ⟨E,d,depositor,settlement,rest,ha,hacc,rfl,-⟩
    · exact h.address k n p hk
    · exact ⟨_,(hnew ha hacc).1⟩
  · intro k n p hk
    rcases after_opened hk with hold | ⟨E,d,depositor,settlement,rest,ha,hacc,rfl,hamt⟩
    · obtain ⟨i,bump,hi⟩ := h.address k n p hold
      by_contra hlt
      have hamt := h.amount k n p hold
      -- lamports that left the account closed the deposit
      obtain ⟨E,d,m,q,-,-,-,hafter⟩ := hsafe.takes k i bump hi (by omega)
      rw [hafter] at hk
      simp at hk
    · rw [(hnew ha hacc).2, hamt]

theorem run_funded (hs : SystemRules H) (hn : H.programId ≠ systemId) (hz : ∀ x, H.hash x ≠ zeroKey)
    {x y : Ledger × Book} (h : Run H x y) (hx : Tracks H x.1 x.2) (hf : Funded H x.1 x.2) :
    Funded H y.1 y.2 := by
  induction h with
  | refl => exact hf
  | tail hxy hstep ih =>
    obtain ⟨a,ha,hbk⟩ := hstep
    exact hbk ▸ ih.step hs hn hz (run_tracks hs hn hz hxy hx) ha

/-- A step pays out an open deposit of something or leaves it open. -/
theorem Step.open_or_paid (hs : SystemRules H) (hn : H.programId ≠ systemId)
    (hz : ∀ x, H.hash x ≠ zeroKey) (ht : Tracks H s b) (hf : Funded H s b) (hstep : Step H a s s')
    (hk : b.opened k = some (n,p)) (hp : 0 < p.amount) :
    (b.after s a).opened k = some (n,p) ∨ n ∈ (b.after s a).paid := by
  have hsafe := (step_safe hs hn hz ht hstep).2
  have hamt := hf.amount k n p hk
  rcases hsafe.keeps k n p hk with h | ⟨E,d,-,hpay⟩ | ⟨-,hl⟩
  · exact .inl h
  · obtain ⟨i,bump,hi⟩ := hf.address k n p hk
    have hzero : (s' k).lamports = 0 := by
      cases hpay with
      | claim _ _ _ _ _ _ _ _ hsw => exact hsw.emptied
      | reclaim _ _ _ _ _ _ _ hsw => exact hsw.emptied
    obtain ⟨_,_,m,q,-,hm,-,hafter⟩ := hsafe.takes k i bump hi (by omega)
    rw [hk] at hm
    cases hm
    rw [hafter]
    exact .inr (List.mem_cons_self ..)
  · omega

theorem run_open_or_paid (hs : SystemRules H) (hn : H.programId ≠ systemId)
    (hz : ∀ x, H.hash x ≠ zeroKey) {x y : Ledger × Book} (h : Run H x y) (ht : Tracks H x.1 x.2)
    (hf : Funded H x.1 x.2) (hk : x.2.opened k = some (n,p)) (hp : 0 < p.amount) :
    y.2.opened k = some (n,p) ∨ n ∈ y.2.paid := by
  induction h with
  | refl => exact .inl hk
  | tail hxy hstep ih =>
    obtain ⟨a,ha,hbk⟩ := hstep
    rw [hbk]
    rcases ih with h | h
    · exact ha.open_or_paid hs hn hz (run_tracks hs hn hz hxy ht)
        (run_funded hs hn hz hxy ht hf) h hp
    · exact .inr (after_paid h)

/-- In every reachable state a claim, a reclaim and a deposit by a wallet are
accepted exactly when the book allows them. -/
theorem book_decides (hs : SystemRules H) (hacc : SystemAccepts H) (hbal : SystemBalances H)
    (hn : H.programId ≠ systemId) (hz : ∀ x, H.hash x ≠ zeroKey) {s₀ : Ledger}
    (hg : ∀ k, (s₀ k).owner ≠ H.programId) (hr : Run H (s₀,Book.empty) (s,b)) (ho : On H E)
    (d : Bytes) :
    (Accepts (Deployed.process E (1 :: d)) s ↔ MayClaim E s b d) ∧
    (Accepts (Deployed.process E (2 :: d)) s ↔ MayReclaim E s b d) ∧
    ((∀ x, E.accounts[0]? = some x → Vacant s x.key) →
      (Accepts (Deployed.process E (0 :: d)) s ↔ MayDeposit E s d)) :=
  have ht : Tracks H s b := run_tracks hs hn hz hr (tracks_empty hg)
  ⟨accepts_claim hs hz ht ho,accepts_reclaim hs hz ht ho,accepts_deposit hs hacc hbal ho⟩

/-- Whatever happens after a deposit of something, it has been paid out or it is
still open, its account holds the amount, its depositor can reclaim it, and
whoever shows the preimage can claim it from the unlock time on. -/
theorem deposit_never_stuck (hs : SystemRules H) (hn : H.programId ≠ systemId)
    (hz : ∀ x, H.hash x ≠ zeroKey) {s₀ : Ledger} (hg : ∀ k, (s₀ k).owner ≠ H.programId)
    (hr : Run H (s₀,Book.empty) (s,b)) (hk : b.opened k = some (n,p)) (hp : 0 < p.amount)
    (hr' : Run H (s,b) (s',b')) :
    n ∈ b'.paid ∨
    b'.opened k = some (n,p) ∧ p.amount ≤ (s' k).lamports ∧
      ∀ E d payee settlement, On H E → PayoutSlots E s' d payee settlement → settlement.key = k →
        (d.length = 32 → payee.key = p.depositor → Accepts (Deployed.process E (2 :: d)) s') ∧
        (36+saltLen d ≤ d.length → p.unlockTime ≤ E.clock →
          (E.host.hash (payee.key.bytes ++ slice d 36 (saltLen d))).bytes = p.commitment →
          Accepts (Deployed.process E (1 :: d)) s') := by
  have ht := run_tracks hs hn hz hr (tracks_empty hg)
  have hf := run_funded hs hn hz hr (tracks_empty hg) funded_empty
  have ht' := run_tracks hs hn hz hr' ht
  rcases run_open_or_paid hs hn hz hr' ht hf hk hp with h | h
  · refine .inr ⟨h,(run_funded hs hn hz hr' ht hf).amount k n p h,?_⟩
    rintro E d payee settlement ho hslots rfl
    exact ⟨fun hl hd => (accepts_reclaim hs hz ht' ho).mpr ⟨payee,settlement,n,p,hslots,hl,h,hd⟩,
      fun hl hu hc => (accepts_claim hs hz ht' ho).mpr ⟨payee,settlement,n,p,hslots,hl,h,hc,hu⟩⟩
  · exact .inl h

/-! ## The deposit on the small host -/

namespace Counter
open Xete.Reference

theorem counter_systemAccepts : SystemAccepts counter :=
  have h := host_systemAccepts programKey
    [((bumped (seeds settlementId) 255).flatten,programKey,settlementKey)]
  ⟨h.create⟩

theorem claim_after : Run counter (deposited,depositBook) (claimed,claimBook) := by
  have h : Run counter (deposited,depositBook) (deposited,depositBook) := .refl
  exact h.step claim_step

theorem deposit_run : Run counter (start,Book.empty) (deposited,depositBook) := by
  have h : Run counter (start,Book.empty) (start,Book.empty) := .refl
  exact h.step deposit_step

end Counter

open Counter in
/-- At the clock of its claim the deposit may be claimed with its salt and with no other one. -/
theorem book_decides_claim : MayClaim claimSees deposited depositBook (claimData.drop 1) ∧
    ¬MayClaim claimSees deposited depositBook (settlementId ++ le 4 1 ++ [8]) := by
  have ho : On counter claimSees := sees_on _ _ _ (by decide) (by decide)
  have hd := book_decides counter_systemRules counter_systemAccepts counter_systemBalances
    (by decide) counter_hash start_fresh deposit_run ho
  constructor
  · apply (hd _).1.mp
    decide +kernel
  · rw [← (hd _).1]
    decide +kernel

open Counter in
theorem deposit_never_stuck_claimed : 0 ∈ claimBook.paid := by
  have hk : (depositBook.opened settlementKey).map (fun x => (x.1,x.2.amount)) =
    some (0,2000000) := by
    decide +kernel
  obtain ⟨⟨n,p⟩,hk,hx⟩ := Option.map_eq_some_iff.mp hk
  obtain ⟨rfl,hp⟩ := Prod.mk.inj hx
  have hpos : 0 < p.amount := by
    rw [show p.amount = 2000000 from hp]
    decide
  have hnone : (claimBook.opened settlementKey).isSome = false := by decide +kernel
  rcases deposit_never_stuck counter_systemRules (by decide) counter_hash start_fresh deposit_run hk
    hpos claim_after with h | ⟨h,-⟩
  · exact h
  · rw [h] at hnone
    cases hnone

end Xete.Tab
