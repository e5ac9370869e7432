import XetePrograms.Solana.Reference

/-!
# The delegate of a token account

A token account has one delegate, with the amount it may still move. An
approval overwrites it, a revocation clears it, and nothing but a transfer by
the delegate itself spends it.
-/

set_option autoImplicit false

namespace Xete.Rules
open Xete.Octets Xete.Chain Xete.Token

/-- The delegate of the token account at `a`, and how much it may move. -/
def approvalAt (s : Ledger) (a : Pubkey) : Option (Pubkey × ℕ) :=
  (tokenAt s a).bind fun t => t.delegate.map fun k => (k,u64At (s a).data 121)

theorem approvalAt_congr (s s' : Ledger) (a : Pubkey) (ho : (s' a).owner = (s a).owner)
    (hd : (s' a).data = (s a).data) : approvalAt s' a = approvalAt s a := by
  simp only [approvalAt, tokenAt_congr s s' a ho hd, hd]

theorem approvalAt_token {s : Ledger} {a k : Pubkey} {n : ℕ} (h : approvalAt s a = some (k,n)) :
    ∃ t, tokenAt s a = some t ∧ t.delegate = some k ∧ u64At (s a).data 121 = n := by
  simp only [approvalAt, Option.bind_eq_some_iff, Option.map_eq_some_iff, Prod.mk.injEq] at h
  obtain ⟨t,ht,k',hk,rfl,hn⟩ := h
  exact ⟨t,ht,hk,hn⟩

/-- The two token programs, as to delegates. -/
structure ApprovalRules (H : Host) : Prop where
  approve : ∀ p source delegate auth n s s', IsTokenProgram p → n ≤ u64Max →
    H.process (.approve p source delegate auth n) s = some s' →
      approvalAt s' source = some (delegate,n)
  revoke : ∀ p source auth s s', IsTokenProgram p → H.process (.revoke p source auth) s = some s' →
    approvalAt s' source = none
  transfer : ∀ p source mint dest auth n dec s s' a k left, IsTokenProgram p →
    H.process (.transferChecked p source mint dest auth n dec) s = some s' →
    approvalAt s a = some (k,left) → a ≠ source ∨ auth ≠ k → approvalAt s' a = some (k,left)
  spend : ∀ p source mint dest k n left s ts td, IsTokenProgram p → IsMint p s mint →
    tokenAt s source = some ts → tokenAt s dest = some td → ts.program = p → td.program = p →
    ts.mint = mint → td.mint = mint → ts.frozen = false → td.frozen = false → source ≠ dest →
    approvalAt s source = some (k,left) → n ≤ left → n ≤ ts.amount → td.amount+n ≤ u64Max →
      ∃ s', H.process (.transferChecked p source mint dest k n (mintDecimalsAt s mint)) s = some s'

end Xete.Rules

namespace Xete.Reference
open Xete.Octets Xete.Chain Xete.Token Xete.Runtime Xete.Rules

section
variable {s : Ledger} {a source dest k : Pubkey} {t ts td : TokenAccount} {n left : ℕ}

theorem approvalAt_of (h : tokenAt s a = some t) :
    approvalAt s a = t.delegate.map fun k => (k,u64At (s a).data 121) := by
  rw [approvalAt, h, Option.bind_some]

theorem approvalAt_withAmount (h : tokenAt s a = some t) (hn : n ≤ u64Max) :
    approvalAt (withAmount s a n) a = approvalAt s a := by
  have hl := tokenAt_size s a t h
  rw [approvalAt_of (tokenAt_withAmount h n hn), approvalAt_of h]
  have hu : u64At (withAmount s a n a).data 121 = u64At (s a).data 121 := by
    rw [withAmount, setData_same, u64At, slice_patch_disjoint _ _ _ _ _ (.inr (by simp))
      (by simp; omega), u64At]
  rw [hu]

theorem approvalAt_withAmount_other (b : Pubkey) (n : ℕ) (h : a ≠ b) :
    approvalAt (withAmount s b n) a = approvalAt s a :=
  approvalAt_congr _ _ _ (by rw [withAmount_other _ _ _ h]) (by rw [withAmount_other _ _ _ h])

theorem approvalAt_tokenMove (hs : tokenAt s source = some ts) (hd : tokenAt s dest = some td)
    (hn : td.amount+n ≤ u64Max) :
    approvalAt (tokenMove s source dest ts td n) a = approvalAt s a := by
  have hle := tokenAt_amount_le s source ts hs
  unfold tokenMove
  split
  · rfl
  · rename_i hne
    by_cases ha : a = dest
    · subst ha
      rw [approvalAt_withAmount (by rwa [tokenAt_withAmount_other _ _ _ (Ne.symm hne)]) hn,
        approvalAt_withAmount_other _ _ (Ne.symm hne)]
    · rw [approvalAt_withAmount_other _ _ ha]
      by_cases hb : a = source
      · subst hb
        exact approvalAt_withAmount hs (by omega)
      · exact approvalAt_withAmount_other _ _ hb

end

theorem token_not_noop {p : Pubkey} (h : IsTokenProgram p) : p ≠ noopId := by
  rintro rfl
  exact absurd h (by decide)

theorem host_approvalRules (program : Pubkey) (table : Table) :
    ApprovalRules (host program table) where
  approve p source delegate auth n s s' hp hn h := by
    simp only [host, processCpi, if_neg (token_not_noop hp), approve] at h
    split at h
    · rename_i t hat
      split at h
      · cases h
        have hl := tokenAt_size s source t hat
        have hb : ([1,0,0,0] ++ delegate.bytes).length = 36 := by simp
        have h₁ := tokenAt_delegate hat ([1,0,0,0] ++ delegate.bytes) hb
        have h₂ := tokenAt_delegated h₁ (le 8 n) (by simp)
        rw [setData_same, setData_setData] at h₂
        rw [approvalAt_of h₂]
        have hkey : optionKeyAt (patch (s source).data 72 ([1,0,0,0] ++ delegate.bytes)) 72 =
            some delegate := by
          have hall := slice_patch_same (s source).data _ 72 36 hb (by omega)
          have htag := congrArg (fun b => slice b 0 4) hall
          have hval := congrArg (fun b => slice b 4 32) hall
          simp only [slice_slice _ 72 36 _ _ (show 0+4 ≤ 36 by decide),
            slice_slice _ 72 36 _ _ (show 4+32 ≤ 36 by decide)] at htag hval
          have hset : slice (patch (s source).data 72 ([1,0,0,0] ++ delegate.bytes)) 72
            4 ≠ zeros 4 := by
            rw [htag.trans (slice_append_left _ _ _ _ (by simp))]
            decide
          rw [optionKeyAt, if_neg hset]
          exact congrArg some (keyAt_eq _ _ _ (hval.trans
            (by rw [slice_append_right _ _ _ _ (by simp)]; exact slice_all _ _ delegate.size)))
        have hamt : u64At (setData s source
          (patch (patch (s source).data 72 ([1,0,0,0] ++ delegate.bytes))
            121 (le 8 n)) source).data 121 = n := by
          have hfit : 121+8 ≤ (patch (s source).data 72 ([1,0,0,0] ++ delegate.bytes)).length := by
            rw [patch_length _ _ _ (by omega)]
            omega
          rw [setData_same, u64At, slice_patch_same _ _ _ _ (le_length 8 n) hfit]
          exact natLe_le 8 n (by simp only [u64Max] at hn; omega)
        rw [hamt]
        show Option.map _ (optionKeyAt _ 72) = _
        rw [hkey]
        rfl
      · cases h
    · cases h
  revoke p source auth s s' hp h := by
    simp only [host, processCpi, if_neg (token_not_noop hp), revoke] at h
    split at h
    · rename_i t hat
      split at h
      · cases h
        have hl := tokenAt_size s source t hat
        have h₁ := tokenAt_delegate hat (zeros 36) rfl
        have h₂ := tokenAt_delegated h₁ (zeros 8) rfl
        rw [setData_same, setData_setData] at h₂
        rw [approvalAt_of h₂]
        show Option.map _ (optionKeyAt _ 72) = _
        rw [optionKeyAt_none _ _ (by omega)]
        rfl
      · cases h
    · cases h
  transfer p source mint dest auth n dec s s' a k left hp h ha hne := by
    simp only [host, processCpi, if_neg (token_not_noop hp), transferChecked] at h
    split at h
    · rename_i ts td hs hd
      split at h
      · rename_i hc
        have hn : td.amount+n ≤ u64Max := hc.2.2.2.2.2.2.2.2.2.1
        split at h
        · cases h
          rw [approvalAt_tokenMove hs hd hn, ha]
        · split at h
          · rename_i hdel
            cases h
            have hsrc : a ≠ source := by
              rintro rfl
              obtain ⟨t,hat,hk,-⟩ := approvalAt_token ha
              rw [hs] at hat
              cases hat
              rw [hdel.1] at hk
              cases hk
              exact hne.elim (fun h => h rfl) (fun h => h rfl)
            rw [approvalAt_congr (tokenMove s source dest ts td n) _ a
              (by rw [spendDelegation_other _ _ hsrc])
              (by rw [spendDelegation_other _ _ hsrc]), approvalAt_tokenMove hs hd hn, ha]
          · cases h
      · cases h
    · cases h
  spend p source mint dest k n left s ts td hp hm hs hd hsp hdp hsm hdm hsf hdf hne ha hn hle
    hfit := by
    obtain ⟨t,hat,hk,hleft⟩ := approvalAt_token ha
    rw [hs] at hat
    cases hat
    simp only [host, processCpi, if_neg (token_not_noop hp), transferChecked, hs, hd]
    rw [if_pos ⟨hp,hm,hsp,hdp,hsm,hdm,hsf,hdf,hle,hfit,trivial⟩]
    by_cases hauth : ts.authority = k
    · exact ⟨_,if_pos hauth⟩
    · rw [if_neg hauth, if_pos ⟨hk,hleft ▸ hn,hne⟩]
      exact ⟨_,rfl⟩

end Xete.Reference
