import XetePrograms.Tab.Agree
import XetePrograms.Tab.Book

/-!
# Settlement safety

Lamports leave a settlement only to the holder of the commitment or back to the
depositor, and every deposit is paid out once.
-/

set_option autoImplicit false

namespace Xete.Tab
open Xete.Octets Xete.Chain Xete.Runtime Xete.Rules
open Xete.Swap (reap)

variable {H : Host} {E : Env} {s s' : Ledger} {b : Book} {k : Pubkey} {p : Deposit} {n : ℕ}
  {a : Action}

theorem IsSettlement.isPda {settlementId : Bytes} {bump : UInt8}
    (h : IsSettlement H settlementId k bump) : H.IsPda k :=
  H.create_isPda _ _ (H.find_create _ _ _ _ h)

theorem close_drain {dest : Pubkey} (h : (Act.close k dest).effect E s = some s') :
    s' = drain s k dest := by
  simp only [Act.effect] at h
  split at h
  · cases h
    rfl
  · cases h

theorem drain_sweeps {dest : Pubkey} (h : k ≠ dest) : Sweeps s (drain s k dest) k dest :=
  have hd := drain_lamports s h
  ⟨h,hd.1,hd.2.1,hd.2.2⟩

/-- The address of a settlement signs nothing. -/
theorem On.ne (ho : On H E) {x : AccountInfo} (hx : x ∈ E.accounts) (hs : x.isSigner = true)
    (hk : H.IsPda k) : k ≠ x.key := by
  rintro rfl
  obtain ⟨rfl,hw,-⟩ := ho
  exact hw.signers x hx hs hk

/-- A payout meets an open deposit: the bytes of a closed settlement commit to a
preimage of zero, and name the zero key as the depositor. -/
theorem Tracks.pays (h : Tracks H s b) (ho : On H E) (hz : ∀ x, H.hash x ≠ zeroKey) {t : UInt8}
    {d : Bytes} (ht : t ≠ 0) (hset : Settled E s (t :: d) s') (hx : E.accounts.length = 2) :
    ∃ dest settlement n p, E.accounts = [dest,settlement] ∧
      b.opened settlement.key = some (n,p) ∧ PaysOut E settlement.key p s s' (t :: d) ∧
      s' = drain s settlement.key dest.key := by
  cases hset with
  | deposit => exact (ht rfl).elim
  | claim d beneficiary settlement rest bump _ hl ha hsg hp hown hd hh hu hc =>
    obtain rfl : rest = [] := by rw [ha] at hx; simpa using hx
    have hne := ho.ne (x := beneficiary) (by simp [ha]) hsg (ho.host ▸ hp.isPda)
    have hprog : (s settlement.key).owner = H.programId := by rw [hown, Env.programId, ho.host]
    cases hb : b.opened settlement.key with
    | none =>
      rw [h.closed _ hprog hb, slice_zeros 81 40 32 (by decide)] at hh
      rw [ho.host] at hh
      exact (hz _ (Pubkey.ext' hh)).elim
    | some x =>
      obtain ⟨n,p⟩ := x
      obtain ⟨-,-,-,-,hcm,hun⟩ := h.opened _ n p hb
      rw [close_drain hc]
      exact ⟨beneficiary,settlement,n,p,ha,hb,.claim d beneficiary settlement ha rfl hsg
        (hh.trans hcm) (hun ▸ hu) (drain_sweeps hne),rfl⟩
  | reclaim d depositor settlement rest bump _ hl ha hsg hp hown hd hk hc =>
    obtain rfl : rest = [] := by rw [ha] at hx; simpa using hx
    have hne := ho.ne (x := depositor) (by simp [ha]) hsg (ho.host ▸ hp.isPda)
    have hprog : (s settlement.key).owner = H.programId := by rw [hown, Env.programId, ho.host]
    cases hb : b.opened settlement.key with
    | none =>
      rw [h.closed _ hprog hb, keyAt_zeros] at hk
      exact (ho.notZero depositor (by simp [ha]) hsg hk.symm).elim
    | some x =>
      obtain ⟨n,p⟩ := x
      obtain ⟨-,-,hdep,-⟩ := h.opened _ n p hb
      rw [close_drain hc]
      exact ⟨depositor,settlement,n,p,ha,hb,.reclaim d depositor settlement ha rfl hsg
        (hk.symm.trans hdep) (drain_sweeps hne),rfl⟩

/-- A deposit creates its settlement and touches no other account but the payer. -/
theorem Settled.deposited (hs : SystemRules H) (ho : On H E) {d : Bytes}
    (hset : Settled E s (0 :: d) s') :
    ∃ depositor settlement system rest, E.accounts = depositor :: settlement :: system :: rest ∧
      depositor.isSigner = true ∧ H.IsPda settlement.key ∧ Vacant s settlement.key ∧
      (s settlement.key).lamports = 0 ∧
      (s' settlement.key).owner = H.programId ∧
      Records (s' settlement.key).data ⟨depositor.key,u64At d 32,slice d 40 32,i64At d 72⟩ ∧
      (∀ x, x ≠ settlement.key → (s' x).owner = (s x).owner ∧ (s' x).data = (s x).data ∧
        (x ≠ depositor.key → (s' x).lamports = (s x).lamports)) ∧
      (SystemBalances H → total s' = total s) := by
  obtain ⟨rfl,hw,hnz⟩ := ho
  cases hset with
  | deposit _ depositor settlement system rest bump s₁ _ hl ha hsg hp hc hwr =>
    have hne : depositor.key ≠ settlement.key := by
      intro he
      exact hw.signers depositor (by simp [ha]) hsg (he ▸ hp.isPda)
    simp only [createAct, Act.effect] at hc
    split at hc
    · obtain ⟨hv,hempty,-,hoth⟩ := hs.create _ _ _ _ _ _ _ hc
      simp only [Act.effect] at hwr
      split at hwr
      · rename_i hperm hwrite
        cases hwr
        refine ⟨depositor,settlement,system,rest,ha,hsg,hp.isPda,hv,hempty,?_,?_,?_,?_⟩
        · rw [setData_owner]
          exact hwrite.1
        · rw [setData_same]
          exact newSettlement_records _ _ _ hl
        · intro x hx
          rw [setData_other _ _ _ _ hx]
          exact hoth x hx
        · intro hb
          have hcr := create_total hs hb hne hc
          rw [← hcr]
          exact total_congr fun x => setData_lamports _ _ _ x
      · cases hwr
    · cases hc

/-- What a step leaves to the settlements: it takes lamports from one only by
paying out its deposit, and an open deposit stays recorded until it is paid out
or, where nothing was deposited, removed. -/
structure SafeStep (H : Host) (a : Action) (s s' : Ledger) (b : Book) : Prop where
  takes : ∀ k settlementId bump, IsSettlement H settlementId k bump →
    (s' k).lamports < (s k).lamports →
      ∃ E d n p, a = .call E d ∧ b.opened k = some (n,p) ∧ PaysOut E k p s s' d ∧
        b.after s a = ⟨b.next,Function.update b.opened k none,n :: b.paid⟩
  keeps : ∀ k n p, b.opened k = some (n,p) → (b.after s a).opened k = some (n,p) ∨
    (∃ E d, a = .call E d ∧ PaysOut E k p s s' d) ∨ a = .reap ∧ (s k).lamports = 0
  conserves : SystemBalances H → total s' = total s

theorem call_safe (hs : SystemRules H) (hz : ∀ x, H.hash x ≠ zeroKey) (h : Tracks H s b) {d : Bytes}
    (ho : On H E) (hc : Leaves (Deployed.process E d) s s') :
    Tracks H s' (b.after s (.call E d)) ∧ SafeStep H (.call E d) s s' b := by
  obtain ⟨hset,hx⟩ := (deployed_leaves (by rw [ho.host]; exact hs) d).mp hc
  have hn : H.programId ≠ systemId := by
    rw [← ho.host]
    exact ho.wellformed.notSystem
  cases d with
  | nil => cases hset
  | cons t d =>
    by_cases ht : t = 0
    · subst ht
      obtain ⟨depositor,settlement,system,rest,ha,hsg,hpda,hv,hempty,hown,hr,hoth,htot⟩ :=
        hset.deposited hs ho
      have hvac : (s settlement.key).owner ≠ H.programId := by
        rw [hv.1]
        exact hn.symm
      have hafter : b.after s (.call E (0 :: d)) = b.deposit settlement.key
          ⟨depositor.key,u64At d 32,slice d 40 32,i64At d 72⟩ := by
        simp only [Book.after, ha]
      refine ⟨?_,?_,?_,htot⟩
      · rw [hafter]
        exact h.deposit hvac hown hr fun x hx => ⟨(hoth x hx).1,(hoth x hx).2.1⟩
      · intro k i bump hk hlt
        exfalso
        have hkd := ho.ne (x := depositor) (by simp [ha]) hsg hk.isPda
        by_cases hks : k = settlement.key
        · rw [hks, hempty] at hlt
          exact absurd hlt (Nat.not_lt_zero _)
        · rw [(hoth k hks).2.2 hkd] at hlt
          exact hlt.false
      · intro k n p hk
        left
        have hne : k ≠ settlement.key := by
          rintro rfl
          rw [h.unopened hvac] at hk
          cases hk
        rw [hafter]
        simpa only [Book.deposit, Function.update_of_ne hne] using hk
    · have hx' : E.accounts.length = 2 := by
        unfold ExactAccounts at hx
        split at hx
        · rename_i he
          cases he
          exact (ht rfl).elim
        · exact hx
      obtain ⟨dest,settlement,n,p,ha,hb,hpay,rfl⟩ := h.pays ho hz ht hset hx'
      have hafter : b.after s (.call E (t :: d)) = b.pay settlement.key := by
        unfold Book.after
        split
        · rename_i he
          cases he
          exact (ht rfl).elim
        · rename_i he
          cases he
          rw [ha]
        all_goals rename_i he; cases he
      have hbook : b.pay settlement.key =
          ⟨b.next,Function.update b.opened settlement.key none,n :: b.paid⟩ := by
        rw [Book.pay, hb]
      have hne : settlement.key ≠ dest.key := by
        cases hpay with
        | claim _ x y ha' hk _ _ _ hp =>
          rw [ha] at ha'
          cases ha'
          exact hp.ne
        | reclaim _ x y ha' hk _ _ hp =>
          rw [ha] at ha'
          cases ha'
          exact hp.ne
      obtain ⟨hl₁,hl₂,hl₃⟩ := drain_lamports s hne
      refine ⟨?_,?_,?_,?_⟩
      · rw [hafter]
        refine h.pay hb (drain_owner s _ _) ?_ fun x hx => (drain_other s _ _ _ hx).1
        rw [← h.length (h.opened _ n p hb).1]
        simp [drain]
      · intro k i bump hk hlt
        have hks : k = settlement.key := by
          by_contra hks
          exact absurd (drain_other s _ dest.key _ hks).2 (not_le.mpr hlt)
        subst hks
        exact ⟨E,t :: d,n,p,rfl,hb,hpay,hafter.trans hbook⟩
      · intro k m q hk
        by_cases hks : k = settlement.key
        · subst hks
          rw [hb] at hk
          cases hk
          exact .inr (.inl ⟨E,t :: d,rfl,hpay⟩)
        · left
          rw [hafter, hbook]
          simpa only [Function.update_of_ne hks] using hk
      · intro _
        refine total_move hne ?_ hl₂ hl₃
        rw [hl₁, Nat.zero_add]

theorem step_safe (hs : SystemRules H) (hn : H.programId ≠ systemId)
    (hz : ∀ x, H.hash x ≠ zeroKey) (h : Tracks H s b) (hstep : Step H a s s') :
    Tracks H s' (b.after s a) ∧ SafeStep H a s s' b := by
  cases hstep with
  | call E d _ _ ho hc => exact call_safe hs hz h ho hc
  | transfer source dest m _ _ hp ht =>
    have hr := hs.transfer _ _ _ _ _ ht
    refine ⟨h.congr (fun x => (hr x).1) fun x => (hr x).2.1,?_,fun k n p hk => .inl hk,?_⟩
    · intro k i bump hk hlt
      have hne : k ≠ source := by
        rintro rfl
        exact hp hk.isPda
      exact absurd ((hr k).2.2 hne) (not_le.mpr hlt)
    · exact fun hb => transfer_total hb ht
  | reap =>
    have hl : ∀ x, (reap s x).lamports = (s x).lamports := by
      intro x
      by_cases hx : (s x).lamports = 0 <;> simp [reap, hx]
    refine ⟨h.drop hn,?_,?_,fun _ => total_congr hl⟩
    · intro k i bump hk hlt
      rw [hl] at hlt
      exact hlt.false.elim
    · intro k n p hk
      by_cases hx : (s k).lamports = 0
      · exact .inr (.inr ⟨rfl,hx⟩)
      · left
        simpa only [Book.after, Book.drop, hx, if_false] using hk

theorem tracks_empty (hg : ∀ k, (s k).owner ≠ H.programId) : Tracks H s Book.empty where
  opened k n p hb := by cases hb
  closed k hk _ := (hg k hk).elim
  number k n p hb := by cases hb
  apart k k' n p p' hb := by cases hb
  paid := ⟨List.nodup_nil,fun n hn => by cases hn⟩

/-- In every run from a ledger in which the program owns nothing, the ledger
keeps the deposits of the book, no deposit is paid out twice, the lamports add
up, and no further step is unsafe. -/
theorem settlements_safe (hs : SystemRules H) (hb : SystemBalances H) (hn : H.programId ≠ systemId)
    (hz : ∀ x, H.hash x ≠ zeroKey) {s₀ : Ledger} (hg : ∀ k, (s₀ k).owner ≠ H.programId)
    (hr : Run H (s₀,Book.empty) (s,b)) :
    (∀ k n p, b.opened k = some (n,p) → (s k).owner = H.programId ∧ Records (s k).data p) ∧
    b.paid.Nodup ∧ total s = total s₀ ∧ ∀ a s', Step H a s s' → SafeStep H a s s' b := by
  have key : ∀ x, Run H (s₀,Book.empty) x → Tracks H x.1 x.2 ∧ total x.1 = total s₀ := by
    intro x hx
    induction hx with
    | refl => exact ⟨tracks_empty hg,rfl⟩
    | tail _ hstep ih =>
      obtain ⟨a,ha,hbk⟩ := hstep
      obtain ⟨ht,hsafe⟩ := step_safe hs hn hz ih.1 ha
      exact ⟨hbk ▸ ht,(hsafe.conserves hb).trans ih.2⟩
  obtain ⟨ht,htot⟩ := key _ hr
  exact ⟨ht.opened,ht.paid.1,htot,fun a s' ha => (step_safe hs hn hz ht ha).2⟩

/-! ## A deposit and its claim -/

namespace Counter
open Xete.Reference

theorem counter_systemBalances : SystemBalances counter :=
  have h := host_systemBalances programKey
    [((Swap.bumped (seeds settlementId) 255).flatten,programKey,settlementKey)]
  ⟨h.create,h.transfer⟩

theorem counter_hash (x : Bytes) : counter.hash x ≠ zeroKey := by
  intro h
  have := congrArg (fun k : Pubkey => k.bytes.head?) h
  simp [counter, zeroKey, zeros] at this

theorem sees_on (clock : ℤ) (signer : Pubkey) (others : List Pubkey) (h : signer ≠ settlementKey)
    (hz : signer ≠ zeroKey) : On counter (sees clock signer others) where
  host := rfl
  wellformed :=
    { signers := by
        intro x hx hs hp
        rcases List.mem_cons.mp hx with rfl | hx
        · have hm := host_isPda programKey
            [((Swap.bumped (seeds settlementId) 255).flatten,programKey,settlementKey)] _ hp
          exact h (List.mem_singleton.mp hm)
        · obtain ⟨k,-,rfl⟩ := List.mem_map.mp hx
          cases hs
      notSystem := show programKey ≠ systemId by decide
      notToken := show ¬IsTokenProgram programKey by decide
      notCore := show programKey ≠ mplCoreId by decide }
  notZero := by
    intro x hx hs
    rcases List.mem_cons.mp hx with rfl | hx
    · exact hz
    · obtain ⟨k,-,rfl⟩ := List.mem_map.mp hx
      cases hs

/-- The program owns nothing at the start. -/
theorem start_fresh (k : Pubkey) : (start k).owner ≠ counter.programId := by
  have hs : (start k).owner = systemId := by
    simp only [start, ledgerOf]
    cases hf : List.find? (fun e : Pubkey × Account => decide (e.1 = k))
        [(depositor,walletAccount),(beneficiary,walletAccount)] with
    | none => rfl
    | some e =>
      have := List.mem_of_find?_eq_some hf
      simp only [List.mem_cons, List.not_mem_nil, or_false] at this
      rcases this with rfl | rfl <;> rfl
  rw [hs]
  decide

def deposited : Ledger := ledgerAfter (Deployed.process depositSees (depositData 2000000)) start

def claimed : Ledger := ledgerAfter (Deployed.process claimSees claimData) deposited

def depositBook : Book := Book.empty.after start (.call depositSees (depositData 2000000))

def claimBook : Book := depositBook.after deposited (.call claimSees claimData)

theorem deposit_step : Step counter (.call depositSees (depositData 2000000)) start deposited :=
  .call _ _ _ _ (sees_on _ _ _ (by decide) (by decide)) (leaves_ledgerAfter (by decide +kernel))

theorem claim_step : Step counter (.call claimSees claimData) deposited claimed :=
  .call _ _ _ _ (sees_on _ _ _ (by decide) (by decide)) (leaves_ledgerAfter (by decide +kernel))

theorem claim_run : Run counter (start,Book.empty) (claimed,claimBook) := by
  have h : Run counter (start,Book.empty) (start,Book.empty) := .refl
  exact (h.step deposit_step).step claim_step

end Counter

open Counter in
theorem settlements_safe_claim :
    claimBook.paid = [0] ∧ claimBook.paid.Nodup ∧ total claimed = total start ∧
      ∀ a s', Step counter a claimed s' → SafeStep counter a claimed s' claimBook := by
  have h := settlements_safe counter_systemRules counter_systemBalances (by decide) counter_hash
    start_fresh claim_run
  exact ⟨by decide +kernel,h.2⟩

end Xete.Tab
