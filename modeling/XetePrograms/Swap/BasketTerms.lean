import XetePrograms.Swap.BasketTrace
import XetePrograms.Swap.Market

/-!
# What the taker of a basket pays and gets

The fill reads every amount from the record it finds, so that it keeps the
terms that the taker saw exactly when the record found is no worse for the
taker, mint by mint, than the record seen.
-/

set_option autoImplicit false

namespace Xete.Swap
open Xete.Octets Xete.Weakest Xete.Chain Xete.Token Xete.Runtime Xete.Rules

def wanted (b : Bytes) (mint : Pubkey) : ℕ :=
  ((List.range (byteAt b bWantCount).toNat).map fun j =>
    if entryMint b bWant j = mint then entryAmount b bWant j else 0).sum

def offered (b : Bytes) (mint : Pubkey) : ℕ :=
  ((List.range (byteAt b bGiveCount).toNat).map fun i =>
    if entryMint b bGive i = mint then entryAmount b bGive i else 0).sum

def NoWorse (seen b : Bytes) : Prop :=
  ∀ mint, wanted b mint ≤ wanted seen mint ∧ offered seen mint ≤ offered b mint

def KeepsTerms (seen : Bytes) (as : List Act) : Prop :=
  ∀ mint, paid as mint ≤ wanted seen mint ∧ offered seen mint ≤ released as mint

section
variable {E : Env} {m m' : Machine} {d : Bytes} {swap taker maker tokenProg : Pubkey}
  {w g : ℕ → List Act}

theorem paid_giveLeg {b nonce : Bytes} {seeds : List Bytes} {makerKey : Pubkey}
    {giveBase i : ℕ} {as : List Act}
    (h : IsGiveLeg E b swap maker tokenProg makerKey nonce seeds giveBase i as)
    (mint : Pubkey) : paid as mint = 0 ∧
      released as mint = if entryMint b bGive i = mint then entryAmount b bGive i else 0 := by
  obtain ⟨vault,dest,dec,bump,-,-,rfl⟩ := h
  simp [paid, released, Act.amount, transferAct, closeAct]

theorem paid_wantLeg {b : Bytes} {wantBase j : ℕ} {as : List Act}
    (h : IsWantLeg E b taker tokenProg wantBase j as) (mint : Pubkey) :
    paid as mint = (if entryMint b bWant j = mint then entryAmount b bWant j else 0) ∧
      released as mint = 0 := by
  obtain ⟨takerWant,makerWant,feeAta,fee,dec,hle,-,rfl⟩ := h
  exact ⟨paid_priceActs _ _ _ _ _ _ _ _ _ _ hle,released_priceActs_none _ _ _ _ _ _ _ _ _ _⟩

theorem sum_range_congr {n : ℕ} {f h : ℕ → ℕ} (hf : ∀ i < n, f i = h i) :
    ((List.range n).map f).sum = ((List.range n).map h).sum := by
  congr 1
  exact List.map_congr_left fun i hi => hf i (List.mem_range.mp hi)

/-- A fill takes and delivers what the record says that it finds. -/
theorem FilledBasket.amounts (h : FilledBasket E d m m' swap taker maker tokenProg w g)
    (hm : m.trace = []) (mint : Pubkey) :
    paid (m'.trace.map Event.act) mint = wanted (m.ledger swap).data mint ∧
    released (m'.trace.map Event.act) mint = offered (m.ledger swap).data mint := by
  rw [did_trace _ _ _ h.did, hm]
  have hclose : paid [.close swap maker] mint = 0 ∧ released [.close swap maker] mint = 0 := by
    simp [paid, released, Act.amount]
  simp only [List.map_nil, List.nil_append, closingActs, paid_append, released_append, paid_flatMap,
    released_flatMap, hclose.1, hclose.2, Nat.add_zero]
  have hw := fun j hj => paid_wantLeg (h.wantLegs j hj) mint
  have hg := fun i hi => paid_giveLeg (h.giveLegs i hi) mint
  rw [sum_range_congr fun j hj => (hw j hj).1, sum_range_congr fun j hj => (hw j hj).2,
    sum_range_congr fun i hi => (hg i hi).1, sum_range_congr fun i hi => (hg i hi).2]
  simp [wanted, offered]

/-- Whatever happened to the slot between the taker's signature and the
execution: the fill keeps the terms seen if and only if the record found is no
worse than the record seen. -/
theorem fillBasket_keepsTerms_iff (hw : Wellformed E) (hf : Confined E.host) (s₀ s₁ : Ledger)
    (swapAcct : AccountInfo) (hslot : E.accounts[1]? = some swapAcct)
    (h : process E (13 :: d) ⟨s₁,[]⟩ = .ok () m') :
    KeepsTerms (s₀ swapAcct.key).data (m'.trace.map Event.act) ↔
      NoWorse (s₀ swapAcct.key).data (s₁ swapAcct.key).data := by
  obtain ⟨swap,taker,maker,tokenProg,w,g,hfill⟩ := wp_ok (fillBasket_did hw hf) h
  rw [hfill.swapSlot.key hslot]
  exact forall_congr' fun mint => by
    rw [(hfill.amounts rfl mint).1, (hfill.amounts rfl mint).2]

end

/-! ## In the market -/

section
open Xete.Market Xete.Reference

def cancelBasketCall : Call where
  env := sees 0 maker [basketKey,splTokenId,configKey,feeWallet,systemId,mintA,bvaultKey,makerA]
  data := 16 :: nonce

/-- The maker of a basket reopens the slot at ninety times the price, and the
fill that the taker signed before pays it. -/
theorem fillBasket_rug : ∃ s₀ s₁ m', runCalls [openBasketCall 100 10] start = some s₀ ∧
    runCalls [cancelBasketCall,openBasketCall 100 900] s₀ = some s₁ ∧
    fillBasketCall.result s₁ = some m' ∧
    ¬KeepsTerms (s₀ basketKey).data (m'.trace.map Event.act) := by
  have h : ((runCalls [openBasketCall 100 10] start).any fun s₀ =>
      (runCalls [cancelBasketCall,openBasketCall 100 900] s₀).any fun s₁ =>
      (fillBasketCall.result s₁).any fun m' =>
        wanted (s₀ basketKey).data mintB < paid (m'.trace.map Event.act) mintB) = true := by
    decide +kernel
  simp only [Option.any_eq_true, decide_eq_true_eq] at h
  obtain ⟨s₀,h₀,s₁,h₁,m',hm,hlt⟩ := h
  exact ⟨s₀,s₁,m',h₀,h₁,hm,fun hk => (hk mintB).1.not_gt hlt⟩

theorem fillBasket_keepsTerms_unchanged : ∃ s₀ m',
    runCalls [openPairsCall 60 40 300 200] start = some s₀ ∧ fillPairsCall.result s₀ = some m' ∧
    KeepsTerms (s₀ basketKey).data (m'.trace.map Event.act) := by
  have h : ((runCalls [openPairsCall 60 40 300 200] start).any fun s₀ =>
      (fillPairsCall.result s₀).isSome) = true := by
    decide +kernel
  simp only [Option.any_eq_true, Option.isSome_iff_exists] at h
  obtain ⟨s₀,h₀,m',hm⟩ := h
  refine ⟨s₀,m',h₀,hm,?_⟩
  exact (fillBasket_keepsTerms_iff (sees_wellformed _ _ _ (by decide)) market_confined s₀ s₀
    ⟨basketKey,false,true⟩ rfl (Call.result_ok hm)).mpr fun mint => ⟨le_refl _,le_refl _⟩

end

end Xete.Swap
