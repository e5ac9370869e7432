import XetePrograms.Swap.BasketTrace
import XetePrograms.Swap.Market

/-!
# A basket settles entry by entry

Each want entry of the record is paid once, each give entry leaves its own vault
once, and the record is closed. Nothing else happens.
-/

set_option autoImplicit false

namespace Xete.Swap
open Xete.Octets Xete.Weakest Xete.Chain Xete.Token Xete.Runtime Xete.Rules Xete.Market

variable {E : Env} {m m' : Machine} {d nonce : Bytes} {swap maker tokenProg : Pubkey}
  {swapIdx makerIdx tokenIdx giveBase : ℕ} {recipient : Option Pubkey} {pre : List Act}
  {r : ℕ → GiveRelease}

structure ExactRelease (E : Env) (nonce : Bytes) (m m' : Machine) (swap maker tokenProg : Pubkey)
    (pre : List Act) (r : ℕ → GiveRelease) : Prop where
  trace : m'.trace.map Event.act = m.trace.map Event.act ++ pre ++
    (List.range (byteAt (m.ledger swap).data bGiveCount).toNat).flatMap
      (releaseActs (m.ledger swap).data swap maker tokenProg nonce r) ++ [.close swap maker]
  apart : ∀ i j, i < (byteAt (m.ledger swap).data bGiveCount).toNat →
    j < (byteAt (m.ledger swap).data bGiveCount).toNat → i ≠ j → (r i).vault ≠ (r j).vault

/-- The vaults of two entries of one basket differ. -/
theorem GiveRounds.apart {b : Bytes} (hc : E.host.CollisionFree) (hl : nonce.length = 32)
    (h : GiveRounds E b swap maker tokenProg nonce giveBase recipient r m m') (i j : ℕ)
    (hi : i < (byteAt b bGiveCount).toNat) (hj : j < (byteAt b bGiveCount).toNat) (hne : i ≠ j) :
    (r i).vault ≠ (r j).vault := by
  obtain ⟨st,-,-,hst⟩ := h
  have hat : ∀ i < (byteAt b bGiveCount).toNat,
      (Place.bvault (keyAt b bMaker) nonce (UInt8.ofNat i)).At E.host (r i).vault := by
    intro i hi
    obtain ⟨bump,hv⟩ := (hst i hi).1.vault
    exact .of_find hl hv
  have hlt := (byteAt b bGiveCount).toNat_lt
  apply (hat i hi).ne hc (hat j hj)
  intro he
  have hidx : UInt8.ofNat i = UInt8.ofNat j := (Place.bvault.inj he).2.2
  apply hne
  calc i = (UInt8.ofNat i).toNat := (UInt8.toNat_ofNat_of_lt' (by unfold UInt8.size; omega)).symm
    _ = (UInt8.ofNat j).toNat := by rw [hidx]
    _ = j := UInt8.toNat_ofNat_of_lt' (by unfold UInt8.size; omega)

theorem SettledBasket.exact (hc : E.host.CollisionFree) (hl : nonce.length = 32)
    (h : SettledBasket E nonce m m' swap maker tokenProg swapIdx makerIdx tokenIdx giveBase
      recipient pre r) :
    ExactRelease E nonce m m' swap maker tokenProg pre r where
  trace := by
    rw [did_trace _ _ _ h.did, closingActs]
    simp only [List.append_assoc]
  apart := by
    obtain ⟨m₁,m₂,-,hg,-⟩ := h.gives
    exact hg.apart hc hl

/-- A settled basket pays each want entry and releases each give entry exactly
once, on the accounts of the entry, and closes its record to the maker. -/
theorem basket_settles (hw : Wellformed E) (hf : Confined E.host) (hc : E.host.CollisionFree)
    (d : Bytes) (m m' : Machine) :
    (fillBasket E d m = .ok () m' → ∃ swap taker maker tokenProg config p r,
      SettledFill E d m m' swap taker maker tokenProg config p r ∧
      ExactRelease E d m m' swap maker tokenProg
        ((List.range (byteAt (m.ledger swap).data bWantCount).toNat).flatMap
          (entryActs (m.ledger swap).data (feePolicy (m.ledger config).data) taker tokenProg p))
            r) ∧
    (claimBearer E d m = .ok () m' → ∃ swap maker tokenProg r,
      SettledBasket E d m m' swap maker tokenProg 2 3 4 5 none [] r ∧
      ExactRelease E d m m' swap maker tokenProg [] r) ∧
    (cancelBasket E d m = .ok () m' → ∃ swap maker tokenProg feeWallet fee r,
      SettledBasket E d m m' swap maker tokenProg 1 0 2 6 (some maker)
        (delistActs maker feeWallet fee) r ∧
      ExactRelease E d m m' swap maker tokenProg (delistActs maker feeWallet fee) r) ∧
    (expireBasket E d m = .ok () m' → ∃ swap maker tokenProg r,
      SettledBasket E d m m' swap maker tokenProg 1 2 3 4 (some maker) [] r ∧
      ExactRelease E d m m' swap maker tokenProg [] r) := by
  refine ⟨fun h => ?_,fun h => ?_,fun h => ?_,fun h => ?_⟩
  · obtain ⟨swap,taker,maker,tokenProg,config,p,r,hs⟩ := wp_ok (fillBasket_settles hw hf) h
    exact ⟨swap,taker,maker,tokenProg,config,p,r,hs,hs.toSettledBasket.exact hc hs.length⟩
  · obtain ⟨swap,maker,tokenProg,bearer,r,hs,hcl⟩ := wp_ok (claimBearer_settles hw hf) h
    exact ⟨swap,maker,tokenProg,r,hs,hs.exact hc hcl.length⟩
  · obtain ⟨swap,maker,tokenProg,wallet,fee,r,hs,hcl⟩ := wp_ok (cancelBasket_settles hw hf) h
    exact ⟨swap,maker,tokenProg,wallet,fee,r,hs,hs.exact hc hcl.length⟩
  · obtain ⟨swap,maker,tokenProg,r,hs,hcl⟩ := wp_ok (expireBasket_settles hw hf) h
    exact ⟨swap,maker,tokenProg,r,hs,hs.exact hc hcl.length⟩

theorem basket_settles_market : ∃ (s : Ledger) (m' : Machine),
    runCalls [openPairsCall 60 40 300 200] start = some s ∧
    fillBasket fillPairsCall.env Market.nonce ⟨s,[]⟩ = .ok () m' ∧
    ∃ swap taker maker tokenProg config p r,
      SettledFill fillPairsCall.env Market.nonce ⟨s,[]⟩ m' swap taker maker tokenProg config p r ∧
      m'.trace.length = 9 := by
  have h : (runCalls [openPairsCall 60 40 300 200] start).any (fun s =>
      (finished (fillBasket fillPairsCall.env Market.nonce) ⟨s,[]⟩).any fun m' =>
        decide (m'.trace.length = 9)) = true := by
    decide +kernel
  simp only [Option.any_eq_true, decide_eq_true_eq] at h
  obtain ⟨s,hs,m',hm,hlen⟩ := h
  have hx := finished_ok hm
  obtain ⟨swap,tkr,mkr,tp,cfg,p,r,hset,-⟩ := (basket_settles (sees_wellformed 1 taker _ (by decide))
    market_confined market_collisionFree Market.nonce ⟨s,[]⟩ m').1 hx
  exact ⟨s,m',hs,hx,swap,tkr,mkr,tp,cfg,p,r,hset,hlen⟩

end Xete.Swap
