import XetePrograms.Swap.Run
import XetePrograms.Swap.Within

/-!
# What runs leave in place

A record of the program keeps its data through every step that may not change
its place, and an account that holds lamports is never removed.
-/

set_option autoImplicit false

namespace Xete.Swap
open Xete.Octets Xete.Weakest Xete.Chain Xete.Token Xete.Runtime Xete.Rules

variable {H : Host} {E : Env} {tag : UInt8} {m m' : Machine} {s s' : Ledger} {c : Call} {a : Action}
  {p : Place} {k : Pubkey} {b : Bytes}

theorem Within.frame (hw : Wellformed E) (hf : Confined E.host) (h : Within E tag m m') :
    Frame E.host (fun k => ∃ p, MaySign tag p ∧ p.At E.host k)
      (fun k => ∃ p, MayChange tag p ∧ p.At E.host k) m.ledger m'.ledger := by
  obtain ⟨as,hd,hp⟩ := h
  exact (ran_frame hw hf as hd.ran).mono (fun k _ => hp.signs k) hp.changes

/-- A successful call ran the handler of its tag. -/
theorem Call.handled (h : c.result s = some m) :
    ∃ tag d, c.data = tag :: d ∧ handler c.env tag d ⟨s,[]⟩ = .ok () m := by
  have hp := Call.result_ok h
  cases hd : c.data with
  | nil =>
    rw [hd] at hp
    cases hp
  | cons tag d =>
    rw [hd] at hp
    exact ⟨tag,d,rfl,hp⟩

theorem Call.within (hs : SystemRules H) (hf : Confined H) (ho : c.On H) {d : Bytes}
    (h : handler c.env tag d ⟨s,[]⟩ = .ok () m) : Within c.env tag ⟨s,[]⟩ m := by
  obtain ⟨rfl,hw⟩ := ho
  exact wp_ok (handler_within hs hw hf) h

structure Recorded (H : Host) (k : Pubkey) (b : Bytes) (s : Ledger) : Prop where
  owner : (s k).owner = H.programId
  data : (s k).data = b
  lamports : 0 < (s k).lamports

theorem Recorded.frame {signed touched : Pubkey → Prop} (h : Recorded H k b s)
    (hf : Frame H signed touched s s') (ht : ¬touched k) : Recorded H k b s' := by
  obtain ⟨ho,hd,hl⟩ := hf.owned k h.owner ht
  exact ⟨ho,hd.trans h.data,h.lamports.trans_le hl⟩

theorem Recorded.reap (h : Recorded H k b s) : Recorded H k b (reap s) := by
  have he := reap_live h.lamports
  exact ⟨he ▸ h.owner,he ▸ h.data,he ▸ h.lamports⟩

theorem Recorded.write {b' : Bytes} (h : Recorded E.host k b s)
    (hw : (Act.write k b').effect E s = some s') : Recorded E.host k b' s' := by
  simp only [Act.effect] at hw
  split at hw
  · cases hw
    exact ⟨by simpa using h.owner,by simp,by simpa using h.lamports⟩
  · cases hw

/-- A created account of the program that nothing has touched since. -/
theorem created_recorded {payer acct : Pubkey} {space : ℕ} {seeds : List Bytes} {as : List Act}
    (hs : SystemRules E.host) (hw : Wellformed E) (hf : Confined E.host)
    (h : Did E (createAct E payer acct space E.programId seeds :: as) m m')
    (ht : ¬TouchedIn as acct) : Recorded E.host acct (zeros space) m'.ledger := by
  obtain ⟨s,he,hd⟩ := h
  simp only [createAct, Act.effect] at he
  split at he
  · obtain ⟨-,-,ha,-⟩ := hs.create _ _ _ _ _ _ _ he
    have hnew : Recorded E.host acct (zeros space) s := by
      constructor <;> rw [ha]
      exact hs.rent space
    exact hnew.frame (ran_frame hw hf as hd.ran) ht
  · cases he

/-- An address where an account can be created holds none. -/
theorem create_vacant {payer acct owner : Pubkey} {space : ℕ} {seeds : List Bytes}
    (hs : SystemRules E.host)
    (h : (createAct E payer acct space owner seeds).effect E s = some s') : Vacant s acct := by
  simp only [createAct, Act.effect] at h
  split at h
  · exact (hs.create _ _ _ _ _ _ _ h).1
  · cases h

/-- One step leaves a record in place unless it is a call of an instruction that
may change the record's place. -/
theorem Recorded.step (hs : SystemRules H) (hf : Confined H) (hc : H.CollisionFree)
    (h : Recorded H k b s) (hk : p.At H k) (hstep : Step H a s s')
    (hn : ∀ c tag d, a = .call c → c.data = tag :: d → ¬MayChange tag p) :
    Recorded H k b s' := by
  cases hstep with
  | call c _ m ho hr =>
    obtain ⟨tag,d,hd,hh⟩ := Call.handled hr
    have hw := Call.within hs hf ho hh
    obtain ⟨rfl,hwf⟩ := ho
    apply h.frame (hw.frame hwf hf)
    rintro ⟨q,hq,hqk⟩
    rw [hqk.inj hc hk] at hq
    exact hn c tag d rfl hd hq
  | outside _ _ hfr => exact h.frame hfr id
  | reap => exact h.reap

end Xete.Swap
