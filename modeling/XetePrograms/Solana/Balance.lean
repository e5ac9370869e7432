import XetePrograms.Library.Flows
import XetePrograms.Solana.Frame

/-!
# Token balances

Transfers move amounts between token accounts and leave all else as it was:
the mints, the owners and the accounts that hold no tokens.
-/

set_option autoImplicit false

namespace Xete.Rules
open Xete.Octets Xete.Chain Xete.Token Xete.Runtime Xete.Flows

/-- The tokens at an address, none where no token account is. -/
def balance (s : Ledger) (a : Pubkey) : ℕ := ((tokenAt s a).map TokenAccount.amount).getD 0

/-- The same token account, with any amount. -/
structure Resized (t t' : TokenAccount) : Prop where
  program : t'.program = t.program
  mint : t'.mint = t.mint
  authority : t'.authority = t.authority
  native : t'.native = t.native
  frozen : t'.frozen = t.frozen
  isSealed : Sealed t → Sealed t'

/-- The tokens went by `fs`, and nothing but amounts changed. -/
structure Moved (fs : List (Flow Pubkey)) (s s' : Ledger) : Prop where
  booked : Booked fs (balance s) (balance s')
  tokens : ∀ a t, tokenAt s a = some t → ∃ t', tokenAt s' a = some t' ∧ Resized t t'
  plain : ∀ a, tokenAt s a = none → s' a = s a
  others : ∀ a, a ∉ ends fs → s' a = s a

variable {H : Host} {s s' s'' : Ledger} {fs gs : List (Flow Pubkey)}
  {t t' t'' : TokenAccount} {a p source mint dest auth : Pubkey} {n : ℕ} {dec : UInt8}

theorem balance_of (h : tokenAt s a = some t) : balance s a = t.amount := by
  simp [balance, h]

theorem balance_none (h : tokenAt s a = none) : balance s a = 0 := by
  simp [balance, h]

theorem balance_congr (ho : (s' a).owner = (s a).owner) (hd : (s' a).data = (s a).data) :
    balance s' a = balance s a := by
  rw [balance, balance, tokenAt_congr _ _ _ ho hd]

theorem Resized.refl (t : TokenAccount) : Resized t t := ⟨rfl,rfl,rfl,rfl,rfl,id⟩

theorem Resized.trans (h : Resized t t') (h' : Resized t' t'') : Resized t t'' :=
  ⟨h'.program.trans h.program,h'.mint.trans h.mint,h'.authority.trans h.authority,
    h'.native.trans h.native,h'.frozen.trans h.frozen,fun hs => h'.isSealed (h.isSealed hs)⟩

theorem Moved.refl (s : Ledger) : Moved [] s s where
  booked := booked_nil rfl
  tokens _ t ht := ⟨t,ht,Resized.refl t⟩
  plain _ _ := rfl
  others _ _ := rfl

/-- No transfer at all counts as one of nothing. -/
theorem Moved.none (s : Ledger) (source dest : Pubkey) : Moved [⟨source,dest,0⟩] s s where
  booked := by
    intro a
    simp [outOf, inTo]
  tokens _ t ht := ⟨t,ht,Resized.refl t⟩
  plain _ _ := rfl
  others _ _ := rfl

theorem Moved.append (h : Moved fs s s') (h' : Moved gs s' s'') : Moved (fs ++ gs) s s'' where
  booked := h.booked.append h'.booked
  tokens a t ht := by
    obtain ⟨t₁,ht₁,hr₁⟩ := h.tokens a t ht
    obtain ⟨t₂,ht₂,hr₂⟩ := h'.tokens a t₁ ht₁
    exact ⟨t₂,ht₂,hr₁.trans hr₂⟩
  plain a ha := by
    have h₁ := h.plain a ha
    rw [h'.plain a ?_, h₁]
    rw [tokenAt_congr s s' a (congrArg Account.owner h₁) (congrArg Account.data h₁), ha]
  others a ha := by
    rw [ends, List.flatMap_append, List.mem_append, not_or] at ha
    rw [h'.others a ha.2, h.others a ha.1]

/-- One transfer of a genuine token program. -/
theorem moved_transfer (ht : TokenRules H) (hp : IsTokenProgram p)
    (h : H.process (.transferChecked p source mint dest auth n dec) s = some s') :
    Moved [⟨source,dest,n⟩] s s' := by
  obtain ⟨ts,td,hts,htd,-,hps,hpd,hms,hmd,hle,heq,hne,how,hrest,-⟩ :=
    ht.transfer _ _ _ _ _ _ _ _ _ hp h
  have hend : ∀ a, tokenAt s a = none → a ≠ source ∧ a ≠ dest := by
    intro a ha
    constructor <;> rintro rfl
    · rw [hts] at ha
      cases ha
    · rw [htd] at ha
      cases ha
  constructor
  · apply booked_single
    · intro hsd
      obtain ⟨⟨ts',hts',hamt,-⟩,td',htd',hamt',-⟩ := hne hsd
      rw [balance_of hts, balance_of htd, balance_of hts', balance_of htd', hamt, hamt']
      exact ⟨Nat.sub_add_cancel hle,rfl⟩
    · intro hsd
      exact balance_congr (how _) (heq hsd _)
    · intro a ha hd
      rw [balance, balance, tokenAt_congr _ _ _ (how a) (congrArg Account.data (hrest a ha hd))]
  · intro a t hat
    by_cases hsd : source = dest
    · refine ⟨t,?_,Resized.refl t⟩
      rw [tokenAt_congr _ _ _ (how a) (heq hsd a), hat]
    · obtain ⟨⟨ts',hts',-,hp₁,hm₁,ha₁,hn₁,hf₁,hs₁⟩,td',htd',-,hp₂,hm₂,ha₂,hn₂,hf₂,hs₂⟩ := hne hsd
      by_cases has : a = source
      · subst has
        obtain rfl := Option.some_inj.mp (hat.symm.trans hts)
        exact ⟨ts',hts',hp₁.trans hps.symm,hm₁.trans hms.symm,ha₁,hn₁,hf₁,hs₁⟩
      · by_cases had : a = dest
        · subst had
          obtain rfl := Option.some_inj.mp (hat.symm.trans htd)
          exact ⟨td',htd',hp₂.trans hpd.symm,hm₂.trans hmd.symm,ha₂,hn₂,hf₂,hs₂⟩
        · refine ⟨t,?_,Resized.refl t⟩
          rw [tokenAt_congr _ _ _ (how a) (congrArg Account.data (hrest a has had)), hat]
  · intro a ha
    exact hrest a (hend a ha).1 (hend a ha).2
  · intro a ha
    simp only [ends, List.flatMap_cons, List.flatMap_nil, List.append_nil, List.mem_cons,
      List.not_mem_nil, or_false, not_or] at ha
    exact hrest a ha.1 ha.2

theorem Moved.isMint (h : Moved fs s s') (hm : IsMint p s mint) :
    IsMint p s' mint ∧ mintDecimalsAt s' mint = mintDecimalsAt s mint := by
  have he := h.plain mint (isMint_not_token p s mint hm)
  refine ⟨(isMint_congr p s s' mint (congrArg Account.owner he) (congrArg Account.data he)).mpr hm,
    ?_⟩
  rw [mintDecimalsAt, mintDecimalsAt, he]

end Xete.Rules
