import Mathlib.Algebra.BigOperators.Fin
import Mathlib.Data.Fintype.Pi
import XetePrograms.Solana.Reference
import XetePrograms.Solana.Rules

/-!
# The lamports of a ledger

There are finitely many addresses, so the lamports of a ledger have a sum. The
system program and the sweep of an account move lamports and keep the sum.
-/

set_option autoImplicit false

namespace Xete.Rules
open Xete.Octets Xete.Chain Xete.Runtime

instance : Finite Pubkey := by
  apply Finite.of_injective fun (k : Pubkey) (i : Fin 32) => (k.bytes[i.1]?.getD 0).toFin
  intro k l h
  apply Pubkey.ext'
  apply List.ext_getElem
  · rw [k.size, l.size]
  · intro i hk hl
    have hi : i < 32 := by rw [← k.size]; exact hk
    have he := congrFun h ⟨i,hi⟩
    simp only [List.getElem?_eq_getElem hk, List.getElem?_eq_getElem hl, Option.getD_some] at he
    exact UInt8.toFin_inj.mp he

noncomputable instance : Fintype Pubkey := Fintype.ofFinite _

noncomputable def total (s : Ledger) : ℕ := ∑ a, (s a).lamports

variable {s s' : Ledger}

theorem total_congr (h : ∀ a, (s' a).lamports = (s a).lamports) : total s' = total s :=
  Finset.sum_congr rfl fun a _ => h a

/-- Lamports that leave one account for another one. -/
theorem total_move {source dest : Pubkey} {n : ℕ} (hne : source ≠ dest)
    (hs : (s' source).lamports+n = (s source).lamports)
    (hd : (s' dest).lamports = (s dest).lamports+n)
    (ho : ∀ a, a ≠ source → a ≠ dest → (s' a).lamports = (s a).lamports) : total s' = total s := by
  have hmem : dest ∈ Finset.univ.erase source := by simp [hne.symm]
  have hsplit : ∀ t : Ledger, total t = (t source).lamports+((t dest).lamports+
      ∑ a ∈ (Finset.univ.erase source).erase dest, (t a).lamports) := by
    intro t
    rw [Finset.add_sum_erase _ (fun a => (t a).lamports) hmem,
      Finset.add_sum_erase _ (fun a => (t a).lamports) (Finset.mem_univ source), total]
  have hrest : ∑ a ∈ (Finset.univ.erase source).erase dest, (s' a).lamports =
      ∑ a ∈ (Finset.univ.erase source).erase dest, (s a).lamports := by
    apply Finset.sum_congr rfl
    intro a ha
    obtain ⟨hd,ha⟩ := Finset.mem_erase.mp ha
    exact ho a (Finset.mem_erase.mp ha).1 hd
  rw [hsplit s', hsplit s, hrest]
  omega

theorem drain_lamports (s : Ledger) {k dest : Pubkey} (h : k ≠ dest) :
    (drain s k dest k).lamports = 0 ∧
      (drain s k dest dest).lamports = (s dest).lamports+(s k).lamports ∧
      ∀ a, a ≠ k → a ≠ dest → (drain s k dest a).lamports = (s a).lamports := by
  refine ⟨by simp [drain],by simp [drain, h.symm],?_⟩
  intro a hk hd
  simp [drain, hk, hd]

/-- What the system program takes from the payer. -/
structure SystemBalances (H : Host) : Prop where
  create : ∀ payer acct n space owner s s', payer ≠ acct →
    H.process (.createAccount payer acct n space owner) s = some s' →
      (s' payer).lamports+n = (s payer).lamports
  transfer : ∀ source dest n s s', H.process (.transferLamports source dest n) s = some s' →
    (source = dest → ∀ a, (s' a).lamports = (s a).lamports) ∧
    (source ≠ dest → (s' source).lamports+n = (s source).lamports ∧
      (s' dest).lamports = (s dest).lamports+n ∧
      ∀ a, a ≠ source → a ≠ dest → (s' a).lamports = (s a).lamports)

variable {H : Host}

theorem create_total (hs : SystemRules H) (hb : SystemBalances H) {payer acct owner : Pubkey}
    {n space : ℕ} (hne : payer ≠ acct)
    (h : H.process (.createAccount payer acct n space owner) s = some s') : total s' = total s := by
  obtain ⟨-,hz,ha,ho⟩ := hs.create _ _ _ _ _ _ _ h
  apply total_move hne (hb.create _ _ _ _ _ _ _ hne h)
  · rw [ha, hz, Nat.zero_add]
  · exact fun a hp hd => (ho a hd).2.2 hp

theorem transfer_total (hb : SystemBalances H) {source dest : Pubkey} {n : ℕ}
    (h : H.process (.transferLamports source dest n) s = some s') : total s' = total s := by
  obtain ⟨heq,hne⟩ := hb.transfer _ _ _ _ _ h
  by_cases hsd : source = dest
  · exact total_congr (heq hsd)
  · obtain ⟨h₁,h₂,h₃⟩ := hne hsd
    exact total_move hsd h₁ h₂ h₃

end Xete.Rules

namespace Xete.Reference
open Xete.Chain Xete.Rules

theorem host_systemBalances (program : Pubkey) (table : Table) :
    SystemBalances (host program table) where
  create := by
    intro payer acct n space owner s s' hne h
    simp only [host, processCpi, createAccount] at h
    split at h
    · rename_i hc
      cases h
      simp [hne]
      omega
    · cases h
  transfer := by
    intro source dest n s s' h
    simp only [host, processCpi, transferLamports] at h
    split at h
    · rename_i hc
      cases h
      refine ⟨fun he => (hc.2.2 he).elim,fun hne => ⟨?_,?_,?_⟩⟩
      · simp [hne]
        omega
      · simp
      · intro a hs hd
        simp [hs, hd]
    · cases h

end Xete.Reference
