import XetePrograms.Swap.Market
import XetePrograms.Swap.Reach

/-!
# One address, one place

The seed strings of the program are told apart byte for byte, so an address
that a handler derives, signs for, writes or closes stands for one place only.
-/

set_option autoImplicit false

namespace Xete.Swap
open Xete.Octets Xete.Chain Xete.Token Xete.Runtime Xete.Rules Xete.Market

variable {H : Host} {c : Call} {s : Ledger} {m : Machine} {k : Pubkey}

/-- What a call signs for, writes or closes is one place of the program. -/
theorem Call.places (hs : SystemRules H) (hf : Confined H) (hc : H.CollisionFree) (ho : c.On H)
    (hr : c.result s = some m)
    (hk : SignsIn c.env (m.trace.map Event.act) k ∨ TouchedIn (m.trace.map Event.act) k) :
    ∃! p : Place, p.At H k := by
  obtain ⟨tag,d,-,hh⟩ := Call.handled hr
  obtain ⟨as,hd,hp⟩ := Call.within hs hf ho hh
  have ht : m.trace.map Event.act = as := did_trace _ _ _ hd
  rw [ht] at hk
  have hat : ∃ p : Place, p.At H k := by
    rw [← ho.host]
    cases hk with
    | inl h => exact (hp.signs k h).imp fun _ h => h.2
    | inr h => exact (hp.changes k h).imp fun _ h => h.2
  obtain ⟨p,hp⟩ := hat
  exact ⟨p,hp,fun q hq => hq.inj hc hp⟩

/-- The seed strings of the eleven formats, bump seeds included, do not
collide, and with a collision-free hash neither do the addresses. -/
theorem seed_domains_apart (hs : SystemRules H) (hf : Confined H) (hc : H.CollisionFree) :
    (∀ (p q : Place) (b b' : UInt8), p.Sized → q.Sized →
      (bumped p.seeds b).flatten = (bumped q.seeds b').flatten → p = q ∧ b = b') ∧
    (∀ (p q : Place) (b b' : UInt8) (k : Pubkey), p.Sized → q.Sized →
      H.createProgramAddress (bumped p.seeds b) H.programId = some k →
      H.createProgramAddress (bumped q.seeds b') H.programId = some k → p = q ∧ b = b') ∧
    ∀ (c : Call) (s : Ledger) (m : Machine), c.On H → c.result s = some m →
      ∀ k, SignsIn c.env (m.trace.map Event.act) k ∨ TouchedIn (m.trace.map Event.act) k →
        ∃! p : Place, p.At H k := by
  refine ⟨Place.bumped_injective,?_,fun c s m ho hr k hk => Call.places hs hf hc ho hr hk⟩
  intro p q b b' k hp hq h h'
  exact Place.bumped_injective p q b b' hp hq (hc _ _ _ _ _ h h').1

theorem seed_domains_apart_opened : ∃ m, (openSwapCall 100 50).result start = some m ∧
    ∃! p : Place, p.At market swapKey := by
  have h : ((openSwapCall 100 50).result start).any (fun m => (m.trace.map Event.act).any fun
      | .write k _ => k = swapKey
      | _ => false) = true := by
    decide +kernel
  simp only [Option.any_eq_true, List.any_eq_true] at h
  obtain ⟨m,hm,a,ha,hw⟩ := h
  refine ⟨m,hm,(seed_domains_apart market_systemRules market_confined market_collisionFree).2.2 _ _
    m (sees_on _ _ _ _ (by decide)) hm _ (.inr ?_)⟩
  cases a with
  | write k d =>
    obtain rfl : k = swapKey := of_decide_eq_true hw
    exact .inl ⟨d,ha⟩
  | invoke _ _ => cases hw
  | close _ _ => cases hw
  | log _ => cases hw

end Xete.Swap
