import Mathlib.Algebra.Order.BigOperators.Group.List
import XetePrograms.Solana.Balance
import XetePrograms.Swap.Refund

/-!
# Releasing the vaults of a basket

The vaults are emptied and closed one after the other in one call. What one
release leaves alone is what the next ones need, so the whole call is accepted
exactly while no vault has more than its entry.
-/

set_option autoImplicit false

namespace Xete.Swap
open Xete.Octets Xete.Weakest Xete.Chain Xete.Token Xete.Runtime Xete.Rules

structure Leg where
  mint : Pubkey
  vault : Pubkey
  dest : Pubkey
  amount : ℕ

variable {E : Env} {H : Host} {m m' : Machine} {s s' s₀ : Ledger} {p r payee : Pubkey}
  {seeds : List Bytes} {d : Bytes} {l : Leg} {legs : List Leg}

/-! ## What the releases need -/

def totalAmount (legs : List Leg) : ℕ := (legs.map Leg.amount).sum

def totalRent (s : Ledger) (legs : List Leg) : ℕ := (legs.map fun l => (s l.vault).lamports).sum

theorem amount_le {l : Leg} (hl : l ∈ legs) : l.amount ≤ totalAmount legs :=
  List.le_sum_of_mem (List.mem_map_of_mem hl)

theorem rent_le {l : Leg} (hl : l ∈ legs) : (s l.vault).lamports ≤ totalRent s legs :=
  List.le_sum_of_mem (List.mem_map_of_mem (f := fun l => (s l.vault).lamports) hl)

structure Releasable (E : Env) (s : Ledger) (p r payee : Pubkey) (seeds : List Bytes)
    (legs : List Leg) :
    Prop where
  each : ∀ l ∈ legs, Refundable E s p l.vault l.mint l.dest r payee l.amount seeds
  vaults : (legs.map Leg.vault).Nodup
  apart : ∀ l ∈ legs, ∀ l' ∈ legs, l.vault ≠ l'.dest
  fits : ∀ l ∈ legs, ∀ t, tokenAt s l.dest = some t → t.amount+totalAmount legs ≤ u64Max
  room : (s payee).lamports+totalRent s legs ≤ u64Max

/-- A release leaves every other token account of the ledger alone, but for its
own destination. -/
theorem Freed.tokenAt_other {v dest a : Pubkey} {n : ℕ} (h : Freed s s' v dest payee n) (hv : a ≠ v)
    (hd : a ≠ dest) : tokenAt s' a = tokenAt s a :=
  tokenAt_congr _ _ _ (h.owners a hv) (h.data a hv hd)

theorem Releasable.tail (h : Releasable E s p r payee seeds (l :: legs))
    (hf : Freed s s' l.vault l.dest payee l.amount) : Releasable E s' p r payee seeds legs := by
  have hl := h.each l (by simp)
  obtain ⟨tl,htl,-⟩ := hl.vault
  obtain ⟨td,htd,-⟩ := hl.target
  obtain ⟨hfresh,hnodup⟩ := List.nodup_cons.mp h.vaults
  have hne : ∀ l' ∈ legs, l'.vault ≠ l.vault := by
    intro l' hl' he
    exact hfresh (he ▸ List.mem_map_of_mem hl')
  have hvault : ∀ l' ∈ legs, tokenAt s' l'.vault = tokenAt s l'.vault := fun l' hl' =>
    hf.tokenAt_other (hne l' hl') (h.apart l' (by simp [hl']) l (by simp))
  have hrent : ∀ l' ∈ legs, (s' l'.vault).lamports = (s l'.vault).lamports := fun l' hl' =>
    hf.lamports _ (hne l' hl') (h.each l' (by simp [hl'])).apart.2
  have htotal : totalRent s' legs = totalRent s legs :=
    congrArg List.sum (List.map_congr_left hrent)
  -- the destination of a later leg, which may be the one just paid
  have htarget : ∀ l' ∈ legs, ∀ t, tokenAt s l'.dest = some t → ∃ t', tokenAt s' l'.dest = some t' ∧
      t'.program = t.program ∧ t'.mint = t.mint ∧ t'.frozen = t.frozen ∧
        t'.amount ≤ t.amount+l.amount := by
    intro l' hl' t ht
    by_cases he : l'.dest = l.dest
    · rw [he] at ht ⊢
      obtain ⟨t',ht',hamt,hprog,hmint,-,hfz⟩ := hf.credited t ht
      exact ⟨t',ht',hprog,hmint,hfz,hamt.le⟩
    · refine ⟨t,?_,rfl,rfl,rfl,Nat.le_add_right _ _⟩
      rw [hf.tokenAt_other (h.apart l (by simp) l' (by simp [hl'])).symm he, ht]
  have hroom := h.room
  have hsum : totalAmount (l :: legs) = l.amount+totalAmount legs := List.sum_cons
  have hrents : totalRent s (l :: legs) = (s l.vault).lamports+totalRent s legs := List.sum_cons
  constructor
  · intro l' hl'
    have h' := h.each l' (by simp [hl'])
    obtain ⟨t,ht,hprog,hmint,hfz,hfit⟩ := h'.target
    obtain ⟨t',ht',hprog',hmint',hfz',hamt'⟩ := htarget l' hl' t ht
    have hfits := h.fits l' (by simp [hl']) t ht
    have hle := amount_le hl'
    have hvr := rent_le (s := s) hl'
    have hmintne : ∀ {a t}, tokenAt s a = some t → l'.mint ≠ a := by
      rintro a t hat rfl
      rw [isMint_not_token _ _ _ h'.isMint] at hat
      cases hat
    exact
      { program := h'.program
        passed := h'.passed
        signer := h'.signer
        writable := h'.writable
        isMint := by
          rw [isMint_congr _ s s' _ (hf.owners _ (hmintne htl))
            (hf.data _ (hmintne htl) (hmintne htd))]
          exact h'.isMint
        vault := by
          rw [hvault l' hl']
          exact h'.vault
        target := ⟨t',ht',hprog'.trans hprog,hmint'.trans hmint,hfz'.trans hfz,by omega⟩
        apart := h'.apart
        room := by
          rw [hf.paid, hrent l' hl']
          omega }
  · exact hnodup
  · exact fun l₁ h₁ l₂ h₂ => h.apart l₁ (by simp [h₁]) l₂ (by simp [h₂])
  · intro l' hl' t' ht'
    obtain ⟨t,ht,-⟩ := (h.each l' (by simp [hl'])).target
    obtain ⟨t'',ht'',-,-,-,hamt⟩ := htarget l' hl' t ht
    rw [ht'] at ht''
    cases ht''
    have hfits := h.fits l' (by simp [hl']) t ht
    omega
  · rw [hf.paid, htotal]
    omega

/-! ## The releases -/

def releaseActsOf (p r payee : Pubkey) (seeds : List Bytes) (dec : UInt8) (l : Leg) : List Act :=
  [transferAct p l.vault l.mint l.dest r l.amount dec (some seeds),closeAct p l.vault payee r seeds]

def ReleaseRun (E : Env) (p r payee : Pubkey) (seeds : List Bytes) :
    List Leg → Machine → Machine → Prop
  | [], m, m' => m' = m
  | l :: legs, m, m' =>
    ∃ m₁, Did E (releaseActsOf p r payee seeds (mintDecimalsAt m.ledger l.mint) l) m m₁ ∧
      ReleaseRun E p r payee seeds legs m₁ m'

structure AllFreed (s s' : Ledger) (payee : Pubkey) (legs : List Leg) : Prop where
  gone : ∀ l ∈ legs, s' l.vault = ⟨0,systemId,[]⟩
  credited : ∀ a t, tokenAt s a = some t → a ∉ legs.map Leg.vault → ∃ t', tokenAt s' a = some t' ∧
    t'.amount = t.amount+totalAmount (legs.filter fun l => l.dest = a) ∧ t'.program = t.program ∧
    t'.mint = t.mint ∧ t'.authority = t.authority ∧ t'.frozen = t.frozen
  paid : (s' payee).lamports = (s payee).lamports+totalRent s legs
  lamports : ∀ a, a ∉ legs.map Leg.vault → a ≠ payee → (s' a).lamports = (s a).lamports
  owners : ∀ a, a ∉ legs.map Leg.vault → (s' a).owner = (s a).owner
  data : ∀ a, a ∉ legs.map Leg.vault → a ∉ legs.map Leg.dest → (s' a).data = (s a).data

theorem ReleaseRun.allFreed (ht : TokenRules E.host)
    (h : Releasable E m.ledger p r payee seeds legs) (hr : ReleaseRun E p r payee seeds legs m m') :
    AllFreed m.ledger m'.ledger payee legs := by
  induction legs generalizing m with
  | nil =>
    cases hr
    constructor <;> simp [totalAmount, totalRent]
    intro a t hat
    exact ⟨t,hat,rfl,rfl,rfl,rfl,rfl⟩
  | cons l legs ih =>
    obtain ⟨m₁,hd,hrest⟩ := hr
    have hf := freed ht (h.each l (by simp)) hd
    have htail := h.tail hf
    have hall := ih htail hrest
    obtain ⟨hfresh,-⟩ := List.nodup_cons.mp h.vaults
    have hl := h.each l (by simp)
    have hout : l.vault ∉ legs.map Leg.dest := by
      intro hin
      obtain ⟨l',hl',he⟩ := List.mem_map.mp hin
      exact h.apart l (by simp) l' (by simp [hl']) he.symm
    constructor
    · intro l' hl'
      rcases List.mem_cons.mp hl' with rfl | hl'
      · have ho := hall.owners _ hfresh
        have hdat := hall.data _ hfresh hout
        have hlam := hall.lamports _ hfresh hl.apart.2
        rw [hf.gone] at ho hdat hlam
        generalize m'.ledger l'.vault = b at *
        cases b
        cases hlam
        cases ho
        cases hdat
        rfl
      · exact hall.gone l' hl'
    · intro a t hat hnot
      simp only [List.map_cons, List.mem_cons, not_or] at hnot
      obtain ⟨hne,hnot⟩ := hnot
      by_cases he : l.dest = a
      · subst he
        obtain ⟨t₁,ht₁,hamt,hrest₁⟩ := hf.credited t hat
        obtain ⟨t₂,ht₂,hamt₂,hrest₂⟩ := hall.credited _ t₁ ht₁ hnot
        refine ⟨t₂,ht₂,?_,hrest₂.1.trans hrest₁.1,hrest₂.2.1.trans hrest₁.2.1,
          hrest₂.2.2.1.trans hrest₁.2.2.1,hrest₂.2.2.2.trans hrest₁.2.2.2⟩
        simp [totalAmount, hamt₂, hamt]
        omega
      · obtain ⟨t₂,ht₂,hamt₂,hrest₂⟩ := hall.credited a t (by
          rw [hf.tokenAt_other hne (Ne.symm he), hat]) hnot
        refine ⟨t₂,ht₂,?_,hrest₂⟩
        rw [hamt₂]
        simp [totalAmount, he]
    · have hrent : totalRent m₁.ledger legs = totalRent m.ledger legs := by
        refine congrArg List.sum (List.map_congr_left fun l' hl' => ?_)
        exact hf.lamports _ (fun he => hfresh (he ▸ List.mem_map_of_mem hl'))
          (h.each l' (by simp [hl'])).apart.2
      rw [hall.paid, hf.paid, hrent]
      simp only [totalRent, List.map_cons, List.sum_cons]
      omega
    · intro a hnot hne
      simp only [List.map_cons, List.mem_cons, not_or] at hnot
      rw [hall.lamports a hnot.2 hne, hf.lamports a hnot.1 hne]
    · intro a hnot
      simp only [List.map_cons, List.mem_cons, not_or] at hnot
      rw [hall.owners a hnot.2, hf.owners a hnot.1]
    · intro a hnot hnot'
      simp only [List.map_cons, List.mem_cons, not_or] at hnot hnot'
      rw [hall.data a hnot.2 hnot'.2, hf.data a hnot.1 hnot'.1]

/-- A vault that holds more than its entry blocks the releases of all. -/
theorem releases_iff (hw : Wellformed E) (ht : TokenRules E.host) (ha : TokenAccepts E.host)
    (h : Releasable E m.ledger p r payee seeds legs) :
    (∃ m', ReleaseRun E p r payee seeds legs m m') ↔ ∀ l ∈ legs,
      Exact m.ledger l.vault l.amount := by
  induction legs generalizing m with
  | nil => simp [ReleaseRun]
  | cons l legs ih =>
    have hl := h.each l (by simp)
    obtain ⟨hfresh,-⟩ := List.nodup_cons.mp h.vaults
    have hsame : ∀ {m₁ : Machine}, Freed m.ledger m₁.ledger l.vault l.dest payee l.amount →
      ∀ l' ∈ legs,
        (Exact m₁.ledger l'.vault l'.amount ↔ Exact m.ledger l'.vault l'.amount) := by
      intro m₁ hf l' hl'
      rw [Exact, Exact, hf.tokenAt_other (fun he => hfresh (he ▸ List.mem_map_of_mem hl'))
        (h.apart l' (by simp [hl']) l (by simp))]
    rw [List.forall_mem_cons]
    constructor
    · rintro ⟨m',m₁,hd,hrest⟩
      have hf := freed ht hl hd
      refine ⟨hl.exact ht hd,fun l' hl' => (hsame hf l' hl').mp ?_⟩
      exact (ih (h.tail hf)).mp ⟨m',hrest⟩ l' hl'
    · rintro ⟨hx,hxs⟩
      obtain ⟨m₁,hd⟩ := hl.frees hw ht ha hx
      have hf := freed ht hl hd
      obtain ⟨m',hrest⟩ := (ih (h.tail hf)).mpr fun l' hl' => (hsame hf l' hl').mpr (hxs l' hl')
      exact ⟨m',m₁,hd,hrest⟩

/-! ## The loop of the handlers -/

def legAt (b : Bytes) (vault dest : ℕ → Pubkey) (i : ℕ) : Leg :=
  ⟨entryMint b bGive i,vault i,dest i,entryAmount b bGive i⟩

structure LegSlots (E : Env) (base i : ℕ) (l : Leg) : Prop where
  mint : SlotIs E (base+i*3) l.mint
  vault : SlotIs E (base+i*3+1) l.vault
  dest : SlotIs E (base+i*3+2) l.dest

section
variable {swap maker tokenProg : AccountInfo} {makerKey : Pubkey} {nonce b : Bytes} {base i : ℕ}
  {recipient : Option Pubkey} {vault dest : ℕ → Pubkey}

theorem releaseLeg_total (hb : (m.ledger swap.key).data = b)
    (hlen : bGive+i*entryLen+entryLen ≤ b.length)
    (hslots : LegSlots E base i (legAt b vault dest i))
    (hvault : ∃ bump, E.host.findProgramAddress (bvaultSeeds makerKey nonce (UInt8.ofNat i))
      E.programId = some (vault i,bump))
    (hown : ∀ owner, recipient = some owner →
      BelongsTo m.ledger (dest i) (entryMint b bGive i) owner)
    (him : ∃ p, IsMint p m.ledger (entryMint b bGive i)) {Q : Unit → Machine → Prop} :
    wp (releaseLeg E swap maker tokenProg makerKey nonce seeds base recipient i) Q
      (fun _ => False) m ↔ ∃ m', Did E (releaseActsOf tokenProg.key swap.key maker.key seeds
        (mintDecimalsAt m.ledger (entryMint b bGive i)) (legAt b vault dest i)) m m' ∧ Q () m' := by
  obtain ⟨ma,hma,hmk⟩ := hslots.mint.getElem
  obtain ⟨va,hva,hvk⟩ := hslots.vault.getElem
  obtain ⟨da,hda,hdk⟩ := hslots.dest.getElem
  obtain ⟨bump,hfind⟩ := hvault
  obtain ⟨p,hp⟩ := him
  have hdec := isMint_decimals hp
  simp only [legAt] at hmk hvk hdk
  rw [← hmk] at hdec hown
  have hnot : ¬b.length < bGive+i*entryLen+entryLen := by omega
  have hmint : keyAt b (bGive+i*entryLen) = ma.key := hmk.symm
  obtain ⟨hl,hget⟩ := List.getElem?_eq_some_iff.mp hdec
  have hrel : releaseActsOf tokenProg.key swap.key maker.key seeds
      (mintDecimalsAt m.ledger (entryMint b bGive i)) (legAt b vault dest i) =
      [transferAct tokenProg.key va.key ma.key da.key swap.key (u64At b (bGive+i*entryLen+32))
        (mintDecimalsAt m.ledger ma.key) (some seeds),
          closeAct tokenProg.key va.key maker.key swap.key seeds] := by
    rw [releaseActsOf, legAt, ← hmk, ← hvk, ← hdk]
    rfl
  rw [hrel, ← hvk] at *
  have hbel : ∀ owner, recipient = some owner → BelongsTo m.ledger da.key ma.key owner := by
    rwa [← hdk] at hown
  cases recipient with
  | none =>
    simp [-wp_perform, total_perform, releaseLeg, entryAt, hma, hva, hda, hb, hnot, hmint, hfind,
      hl, hget, tokenTransfer, tokenClose, transferAct, closeAct, and_assoc]
  | some owner =>
    simp [-wp_perform, total_perform, releaseLeg, entryAt, hma, hva, hda, hb, hnot, hmint, hfind,
      hl, hget, hbel owner rfl, tokenTransfer, tokenClose, transferAct, closeAct, and_assoc]

def TokenOf (s : Ledger) (a mint owner : Pubkey) : Prop :=
  ∃ t, tokenAt s a = some t ∧ t.mint = mint ∧ t.authority = owner

theorem TokenOf.belongs {a mint owner : Pubkey} (h : TokenOf s a mint owner) :
    BelongsTo s a mint owner := by
  obtain ⟨t,ht,rfl,rfl⟩ := h
  have hsome := tokenAt_some s a t ht
  exact ⟨by have := tokenAt_size s a t ht; omega,hsome.2.2.2.1.symm,hsome.2.2.2.2.1.symm⟩

theorem TokenOf.freed {a mint owner v dest : Pubkey} {n : ℕ} (h : TokenOf s a mint owner)
    (hf : Freed s s' v dest payee n) (ha : a ≠ v) : TokenOf s' a mint owner := by
  obtain ⟨t,ht,rfl,rfl⟩ := h
  by_cases he : a = dest
  · subst he
    obtain ⟨t',ht',-,-,hmint,hauth,-⟩ := hf.credited t ht
    exact ⟨t',ht',hmint,hauth⟩
  · exact ⟨t,by rw [hf.tokenAt_other ha he, ht],rfl,rfl⟩

structure LegChecked (E : Env) (s : Ledger) (makerKey : Pubkey) (nonce b : Bytes) (base : ℕ)
    (recipient : Option Pubkey) (vault dest : ℕ → Pubkey) (i : ℕ) : Prop where
  size : bGive+i*entryLen+entryLen ≤ b.length
  slots : LegSlots E base i (legAt b vault dest i)
  address : ∃ bump, E.host.findProgramAddress (bvaultSeeds makerKey nonce (UInt8.ofNat i))
    E.programId = some (vault i,bump)
  owned : ∀ owner, recipient = some owner → TokenOf s (dest i) (entryMint b bGive i) owner

/-- The loop does the releases, and nothing else can fail. -/
theorem releaseLegs_total {is : List ℕ} (hw : Wellformed E) (ht : TokenRules E.host)
    (ho : (m.ledger swap.key).owner = E.programId) (hb : (m.ledger swap.key).data = b)
    (hc : ∀ i ∈ is, LegChecked E m.ledger makerKey nonce b base recipient vault dest i)
    (h : Releasable E m.ledger tokenProg.key swap.key maker.key seeds (is.map (legAt b vault dest)))
    {Q : PUnit → Machine → Prop} :
    wp (forEach is (releaseLeg E swap maker tokenProg makerKey nonce seeds base recipient)) Q
      (fun _ => False) m ↔
      ∃ m', ReleaseRun E tokenProg.key swap.key maker.key seeds (is.map (legAt b vault dest)) m m' ∧
        Q ⟨⟩ m' := by
  induction is generalizing m with
  | nil => simp [ReleaseRun]
  | cons i is ih =>
    have hi := hc i (by simp)
    have hl := h.each (legAt b vault dest i) (by simp)
    rw [wp_forEach_cons, releaseLeg_total hb hi.size hi.slots hi.address
      (fun owner hr => (hi.owned owner hr).belongs) ⟨_,hl.isMint⟩]
    have hnext : ∀ m₁, Did E (releaseActsOf tokenProg.key swap.key maker.key seeds
        (mintDecimalsAt m.ledger (entryMint b bGive i)) (legAt b vault dest i)) m m₁ →
        (wp (forEach is (releaseLeg E swap maker tokenProg makerKey nonce seeds base recipient)) Q
          (fun _ => False) m₁ ↔
        ∃ m', ReleaseRun E tokenProg.key swap.key maker.key seeds
          (is.map (legAt b vault dest)) m₁ m' ∧
          Q ⟨⟩ m') := by
      intro m₁ hd
      have hf := freed ht hl hd
      have hne : ∀ {a t}, tokenAt m.ledger a = some t → swap.key ≠ a := by
        rintro a t hat rfl
        exact hw.notToken (ho ▸ (tokenAt_some _ _ _ hat).1)
      obtain ⟨tv,htv,-⟩ := hl.vault
      obtain ⟨td,htd,-⟩ := hl.target
      refine ih ((hf.owners _ (hne htv)).trans ho) ((hf.data _ (hne htv) (hne htd)).trans hb) ?_
        (h.tail hf)
      intro j hj
      have hcj := hc j (by simp [hj])
      refine ⟨hcj.size,hcj.slots,hcj.address,fun owner hr => (hcj.owned owner hr).freed hf ?_⟩
      exact (h.apart (legAt b vault dest i) (by simp) (legAt b vault dest j)
        (List.mem_cons_of_mem _ (List.mem_map_of_mem hj))).symm
    constructor
    · rintro ⟨m₁,hd,hrest⟩
      obtain ⟨m',hrun,hq⟩ := (hnext m₁ hd).mp hrest
      exact ⟨m',⟨m₁,hd,hrun⟩,hq⟩
    · rintro ⟨m',⟨m₁,hd,hrun⟩,hq⟩
      exact ⟨m₁,hd,(hnext m₁ hd).mpr ⟨m',hrun,hq⟩⟩

end

/-- The vaults and the record are gone, the tokens are where the legs send them,
and all rent is with `payee`. -/
structure Emptied (s s' : Ledger) (r payee : Pubkey) (legs : List Leg) : Prop where
  gone : ∀ l ∈ legs, s' l.vault = ⟨0,systemId,[]⟩
  credited : ∀ a t, tokenAt s a = some t → a ∉ legs.map Leg.vault → ∃ t', tokenAt s' a = some t' ∧
    t'.amount = t.amount+totalAmount (legs.filter fun l => l.dest = a) ∧ t'.program = t.program ∧
    t'.mint = t.mint ∧ t'.authority = t.authority ∧ t'.frozen = t.frozen
  wiped : (s' r).lamports = 0 ∧ (s' r).data = zeros (s r).data.length
  paid : (s' payee).lamports = (s payee).lamports+totalRent s legs+(s r).lamports

structure LastClose (E : Env) (s : Ledger) (r payee : Pubkey) (legs : List Leg) : Prop where
  owner : (s r).owner = E.programId
  writable : E.writable r ∧ E.writable payee
  apart : r ≠ payee
  room : (s payee).lamports+totalRent s legs+(s r).lamports ≤ u64Max

theorem not_token (hw : Wellformed E) (ho : (s r).owner = E.programId) {a : Pubkey}
    {t : TokenAccount} (h : tokenAt s a = some t) : a ≠ r := by
  rintro rfl
  exact hw.notToken (ho ▸ (tokenAt_some _ _ _ h).1)

theorem Releasable.record (hw : Wellformed E) (h : Releasable E s p r payee seeds legs)
    (ho : (s r).owner = E.programId) : r ∉ legs.map Leg.vault ∧ r ∉ legs.map Leg.dest := by
  constructor <;> intro hin <;> obtain ⟨l,hl,he⟩ := List.mem_map.mp hin
  · obtain ⟨t,ht,-⟩ := (h.each l hl).vault
    exact not_token hw ho ht he
  · obtain ⟨t,ht,-⟩ := (h.each l hl).target
    exact not_token hw ho ht he

theorem AllFreed.closes (hw : Wellformed E) (hr : Releasable E s p r payee seeds legs)
    (h : AllFreed s s' payee legs) (hc : LastClose E s r payee legs) :
    ∃ s₁, (Act.close r payee).effect E s' = some s₁ ∧ Emptied s s₁ r payee legs := by
  obtain ⟨hv,hd⟩ := hr.record hw hc.owner
  have hlam := h.lamports r hv hc.apart
  have he := close_effect ((h.owners r hv).trans hc.owner) hc.writable.1 hc.writable.2 hc.apart
    (by rw [h.paid, hlam]; exact hc.room)
  refine ⟨_,he,?_⟩
  constructor
  · intro l hl
    have hne : l.vault ≠ r := fun heq => hv (heq ▸ List.mem_map_of_mem hl)
    simp [drain, hne, (hr.each l hl).apart.2, h.gone l hl]
  · intro a t hat hnot
    obtain ⟨t',ht',hrest⟩ := h.credited a t hat hnot
    refine ⟨t',?_,hrest⟩
    rw [tokenAt_congr _ _ _ (drain_owner _ _ _ _)
      (drain_other _ _ _ _ (not_token hw hc.owner hat)).1, ht']
  · simp [drain, h.data r hv hd]
  · simp [drain, hc.apart.symm, h.paid, hlam]

section
variable {swap maker tokenProg : AccountInfo} {makerKey : Pubkey} {nonce b : Bytes} {base i : ℕ}
  {recipient : Option Pubkey} {vault dest : ℕ → Pubkey} {is : List ℕ}

def basketEnd (E : Env) (swap maker tokenProg : AccountInfo) (makerKey : Pubkey) (nonce : Bytes)
    (seeds : List Bytes) (base : ℕ) (recipient : Option Pubkey) (is : List ℕ) : Exec Unit := do
  forEach is (releaseLeg E swap maker tokenProg makerKey nonce seeds base recipient)
  close E swap maker

structure Endable (E : Env) (s : Ledger) (swap maker p makerKey : Pubkey) (nonce b : Bytes)
    (base : ℕ) (recipient : Option Pubkey) (seeds : List Bytes) (vault dest : ℕ → Pubkey)
    (is : List ℕ) : Prop where
  data : (s swap).data = b
  checked : ∀ i ∈ is, LegChecked E s makerKey nonce b base recipient vault dest i
  legs : Releasable E s p swap maker seeds (is.map (legAt b vault dest))
  last : LastClose E s swap maker (is.map (legAt b vault dest))

theorem basketEnd_total (hw : Wellformed E) (ht : TokenRules E.host)
    (h : Endable E m.ledger swap.key maker.key tokenProg.key makerKey nonce b base recipient seeds
      vault dest is)
    {Q : Unit → Machine → Prop} :
    wp (basketEnd E swap maker tokenProg makerKey nonce seeds base recipient is) Q
      (fun _ => False) m ↔
      ∃ m₁, ReleaseRun E tokenProg.key swap.key maker.key seeds (is.map (legAt b vault dest)) m m₁ ∧
        wp (close E swap maker) Q (fun _ => False) m₁ := by
  rw [basketEnd, wp_bind, releaseLegs_total hw ht h.last.owner h.data h.checked h.legs]

/-- The end of a basket succeeds exactly while no vault has more than its entry. -/
theorem basketEnd_settles (hw : Wellformed E) (ht : TokenRules E.host) (ha : TokenAccepts E.host)
    (h : Endable E m.ledger swap.key maker.key tokenProg.key makerKey nonce b base recipient seeds
      vault dest is) :
    ((∃ m', basketEnd E swap maker tokenProg makerKey nonce seeds base recipient is m = .ok () m') ↔
      ∀ i ∈ is, Exact m.ledger (vault i) (entryAmount b bGive i)) ∧
    ∀ m', basketEnd E swap maker tokenProg makerKey nonce seeds base recipient is m = .ok () m' →
      Emptied m.ledger m'.ledger swap.key maker.key (is.map (legAt b vault dest)) := by
  have hexact : (∃ m₁, ReleaseRun E tokenProg.key swap.key maker.key seeds
    (is.map (legAt b vault dest)) m m₁) ↔
      ∀ i ∈ is, Exact m.ledger (vault i) (entryAmount b bGive i) := by
    rw [releases_iff hw ht ha h.legs, List.forall_mem_map]
    rfl
  have hdone : ∀ m', basketEnd E swap maker tokenProg makerKey nonce seeds base recipient is m =
    .ok () m' →
      ∃ m₁, ReleaseRun E tokenProg.key swap.key maker.key seeds (is.map (legAt b vault dest)) m m₁ ∧
        wp (close E swap maker) (fun _ m'' => m'' = m') (fun _ => False) m₁ := by
    intro m' hx
    apply (basketEnd_total hw ht h).mp
    rw [wp, hx]
  refine ⟨⟨?_,?_⟩,?_⟩
  · rintro ⟨m',hx⟩
    obtain ⟨m₁,hrun,-⟩ := hdone m' hx
    exact hexact.mp ⟨m₁,hrun⟩
  · intro hx
    obtain ⟨m₁,hrun⟩ := hexact.mpr hx
    obtain ⟨s₁,he,-⟩ := (hrun.allFreed ht h.legs).closes hw h.legs h.last
    obtain ⟨_,m',hm,-⟩ := wp_total ((basketEnd_total hw ht h (Q := fun _ _ => True)).mpr
      ⟨m₁,hrun,(total_close _ _).mpr ⟨s₁,he,trivial⟩⟩)
    exact ⟨m',hm⟩
  · intro m' hx
    obtain ⟨m₁,hrun,hq⟩ := hdone m' hx
    obtain ⟨s₁,he,hempty⟩ := (hrun.allFreed ht h.legs).closes hw h.legs h.last
    obtain ⟨s₂,he',rfl⟩ := (total_close _ _).mp hq
    obtain rfl : s₁ = s₂ := Option.some_inj.mp (he.symm.trans he')
    exact hempty

end

/-! ## The calls that end a basket without a payment -/

structure EndAccounts (E : Env) (p basket maker : Pubkey) (swapIdx makerIdx tokenIdx base g : ℕ)
    (leg : ℕ → Leg) : Prop where
  swapSlot : SlotIs E swapIdx basket
  makerSlot : SlotIs E makerIdx maker
  tokenSlot : SlotIs E tokenIdx p
  length : E.accounts.length = base+g*3
  slots : ∀ i < g, LegSlots E base i (leg i)
  writable : E.writable basket ∧ E.writable maker ∧ ∀ i < g, E.writable (leg i).vault ∧
    E.writable (leg i).dest

section
variable {maker basket : Pubkey} {nonce b : Bytes} {vault dest owner : ℕ → Pubkey} {c : Call}

def legsOf (b : Bytes) (vault dest : ℕ → Pubkey) : List Leg :=
  (List.range (byteAt b bGiveCount).toNat).map (legAt b vault dest)

structure BasketAt (E : Env) (s : Ledger) (maker : Pubkey) (nonce : Bytes) (basket : Pubkey) :
    Prop where
  owner : (s basket).owner = E.programId
  record : BasketHolds maker nonce (s basket).data
  address : E.host.createProgramAddress
    (bumped (basketSeeds maker nonce) (byteAt (s basket).data bBump)) E.programId = some basket
  nonce : nonce.length = 32

theorem expireBasket_ends (h : BasketAt E m.ledger maker nonce basket)
    (ha : EndAccounts E p basket maker 1 2 3 4 (byteAt (m.ledger basket).data bGiveCount).toNat
      (legAt (m.ledger basket).data vault dest))
    (hmode : byteAt (m.ledger basket).data bAuthMode ≠ authBearer)
    (hx : i64At (m.ledger basket).data bExpiry ≤ E.clock) :
    ∃ swap mk tp : AccountInfo, swap.key = basket ∧ mk.key = maker ∧ tp.key = p ∧
      ∀ {Q F}, wp (expireBasket E nonce) Q F m ↔ wp (basketEnd E swap mk tp maker nonce
        (bumped (basketSeeds maker nonce) (byteAt (m.ledger basket).data bBump)) 4 (some maker)
        (List.range (byteAt (m.ledger basket).data bGiveCount).toNat)) Q F m := by
  obtain ⟨swap,hs,rfl⟩ := ha.swapSlot.getElem
  obtain ⟨mk,hm,rfl⟩ := ha.makerSlot.getElem
  obtain ⟨tp,ht,rfl⟩ := ha.tokenSlot.getElem
  refine ⟨swap,mk,tp,rfl,rfl,rfl,?_⟩
  intro Q F
  have hlen := ha.length
  simp [expireBasket, basketEnd, h.nonce, slice_all, hlen, hs, hm, ht, h.owner, h.record.length,
    h.record.isOpen, hmode, h.record.maker, hx, h.address]

theorem claimBearer_ends (h : BasketAt E m.ledger maker nonce basket)
    (ha : EndAccounts E p basket maker 2 3 4 5 (byteAt (m.ledger basket).data bGiveCount).toNat
      (legAt (m.ledger basket).data vault dest))
    (hpayer : ∃ a, E.accounts[0]? = some a ∧ a.isSigner = true)
    (hbearer : ∃ a, E.accounts[1]? = some a ∧ a.isSigner = true ∧
      keyAt (m.ledger basket).data bClaimAuth = E.host.hash a.key.bytes)
    (hmode : byteAt (m.ledger basket).data bAuthMode = authBearer) :
    ∃ swap mk tp : AccountInfo, swap.key = basket ∧ mk.key = maker ∧ tp.key = p ∧
      ∀ {Q F}, wp (claimBearer E nonce) Q F m ↔ wp (basketEnd E swap mk tp maker nonce
        (bumped (basketSeeds maker nonce) (byteAt (m.ledger basket).data bBump)) 5 none
        (List.range (byteAt (m.ledger basket).data bGiveCount).toNat)) Q F m := by
  obtain ⟨swap,hs,rfl⟩ := ha.swapSlot.getElem
  obtain ⟨mk,hm,rfl⟩ := ha.makerSlot.getElem
  obtain ⟨tp,ht,rfl⟩ := ha.tokenSlot.getElem
  obtain ⟨pa,hpa,hps⟩ := hpayer
  obtain ⟨ba,hba,hbs,hauth⟩ := hbearer
  obtain ⟨_,hpa⟩ := List.getElem?_eq_some_iff.mp hpa
  refine ⟨swap,mk,tp,rfl,rfl,rfl,?_⟩
  intro Q F
  have hlen := ha.length
  simp [claimBearer, basketEnd, h.nonce, slice_all, hlen, hs, hm, ht, hpa, hps, hba, hbs, hauth,
    h.owner, h.record.length, h.record.isOpen, hmode, h.record.maker, h.address]

/-- What the parties of a basket need: the entries fit their destinations, which
are no accounts of the program, and the rent fits the maker. -/
structure BasketPayable (H : Host) (s : Ledger) (p basket maker : Pubkey)
    (vault dest owner : ℕ → Pubkey) :
    Prop where
  program : IsTokenProgram p
  ordinary : ∀ i < (byteAt (s basket).data bGiveCount).toNat, Ordinary s p (vault i)
  receives : ∀ i < (byteAt (s basket).data bGiveCount).toNat,
    Receives s p (dest i) (entryMint (s basket).data bGive i) (owner i)
      (totalAmount (legsOf (s basket).data vault dest))
  plain : ∀ i < (byteAt (s basket).data bGiveCount).toNat, ¬H.IsPda (owner i)
  room : (s maker).lamports+totalRent s (legsOf (s basket).data vault dest)+(s basket).lamports ≤
    u64Max

structure BasketStands (H : Host) (s : Ledger) (maker : Pubkey) (nonce : Bytes) (basket : Pubkey)
    (vault : ℕ → Pubkey) : Prop where
  owner : (s basket).owner = H.programId
  record : BasketHolds maker nonce (s basket).data
  address : H.findProgramAddress (basketSeeds maker nonce) H.programId =
    some (basket,byteAt (s basket).data bBump)
  party : ¬H.IsPda maker
  stocked : ∀ i < (byteAt (s basket).data bGiveCount).toNat, ∃ bump,
    H.findProgramAddress (bvaultSeeds maker nonce (UInt8.ofNat i)) H.programId =
    some (vault i,bump) ∧
    Stocked s (vault i) (entryMint (s basket).data bGive i) basket
    (entryAmount (s basket).data bGive i)
  sized : nonce.length = 32

theorem basket_stands (hs : SystemRules H) (ht : TokenRules H) (hf : Confined H) (hno : NoSeizure H)
    (hc : H.CollisionFree) (hsys : H.programId ≠ systemId) (hg : Genesis H s₀)
    (hrun : Run H (Assumed H) s₀ s) (hk : (Place.basket maker nonce).At H basket)
    (hl : Live H (s basket))
    (hv : ∀ i < (byteAt (s basket).data bGiveCount).toNat,
      (H.findProgramAddress (bvaultSeeds maker nonce (UInt8.ofNat i)) H.programId).map Prod.fst =
      some (vault i)) :
    BasketStands H s maker nonce basket vault := by
  have hkeyed : Run H Keyed s₀ s :=
    Relation.ReflTransGen.mono (fun _ _ ⟨a,h,hok⟩ => ⟨a,h,hok.solid.1⟩) _ _ hrun
  have hslot := run_slot hs hf hc hsys hg hkeyed rfl hk
  have hrec : BasketHolds maker nonce (s basket).data := (hslot.live_of hsys hl).1
  obtain ⟨c₀,s₁,m₀,hopen⟩ := exists_opening hs hf hc hsys hg (fun a s s' h => h.solid.1) hrun
    rfl hk hl
  obtain ⟨d,tokenProg,bump,w,g,-,hopened,rfl⟩ := hopen.basket hs hf hc hsys hk
  have hesc := fun idx => basket_escrowed hs ht hf hno hc hsys hg hrun hk hl idx
  exact
    { owner := hl.1
      record := hrec
      address := (hesc 0).address
      sized := hopened.nonce
      party := hopen.on.host ▸ signed_plain hopen.on.wellformed hopened.signed
      stocked := by
        intro i hi
        have hi' : (UInt8.ofNat i).toNat = i := by
          have hlt : i < maxLeg := hi.trans_le hrec.gives
          simp only [maxLeg] at hlt
          rw [UInt8.toNat_ofNat']
          omega
        have hdue : basketDue (UInt8.ofNat i) (s basket).data =
            some (entryMint (s basket).data bGive i,entryAmount (s basket).data bGive i) := by
          rw [basketDue, hi', if_pos hi]
        obtain ⟨v,b,hfind,hst⟩ := (hesc (UInt8.ofNat i)).stocked _ _ hdue
        have hvi := hv i hi
        change (H.findProgramAddress (bvaultSeeds maker (slice d 0 32) (UInt8.ofNat i))
          H.programId) = some (v,b) at hfind
        rw [hfind] at hvi
        cases hvi
        exact ⟨b,hfind,hst⟩ }

theorem BasketStands.at (h : BasketStands E.host s maker nonce basket vault) :
    BasketAt E s maker nonce basket :=
  ⟨h.owner,h.record,E.host.find_create _ _ _ _ h.address,h.sized⟩

/-- The vaults of a live basket can be released to their destinations. -/
theorem BasketStands.releasable (hw : Wellformed E) (hc : E.host.CollisionFree)
    (h : BasketStands E.host s maker nonce basket vault)
    (hpay : BasketPayable E.host s p basket maker vault dest owner)
    (hpass : ∃ a ∈ E.accounts, a.key = p)
    (hwr : E.writable basket ∧ E.writable maker ∧ ∀ i < (byteAt (s basket).data bGiveCount).toNat,
      E.writable (vault i) ∧ E.writable (dest i)) :
    Releasable E s p basket maker (bumped (basketSeeds maker nonce) (byteAt (s basket).data bBump))
      (legsOf (s basket).data vault dest) := by
  have hpda : E.host.IsPda basket :=
    (Place.At.of_find (p := .basket maker nonce) h.sized h.address).isPda
  have hsmall : ∀ {i}, i < (byteAt (s basket).data bGiveCount).toNat → i < 256 := by
    intro i hi
    have hlt : i < maxLeg := hi.trans_le h.record.gives
    simp only [maxLeg] at hlt
    omega
  have hat : ∀ {i}, i < (byteAt (s basket).data bGiveCount).toNat →
      (Place.bvault maker nonce (UInt8.ofNat i)).At E.host (vault i) := by
    intro i hi
    obtain ⟨bump,hfind,-⟩ := h.stocked i hi
    exact .of_find h.sized hfind
  have hroom := hpay.room
  constructor
  · intro l hl
    have hmem := hl
    obtain ⟨i,hi,rfl⟩ := List.mem_map.mp hl
    rw [List.mem_range] at hi
    obtain ⟨bump,hfind,hst⟩ := h.stocked i hi
    obtain ⟨t,ht,hprog,hmint,hauth,hfz,hfits⟩ := hpay.receives i hi
    have hle := amount_le hmem
    have hr := rent_le (s := s) hmem
    have hpayable : Payable s p (vault i) (entryMint (s basket).data bGive i) (dest i)
      (owner i) basket maker
        (entryAmount (s basket).data bGive i) :=
      { ordinary := hpay.ordinary i hi
        receives := ⟨t,ht,hprog,hmint,hauth,hfz,(Nat.add_le_add_left hle _).trans hfits⟩
        room := by
          simp only [legAt] at hr
          omega }
    have hpasses : Passes E p (vault i) (dest i) basket maker :=
      { program := hpay.program
        passed := hpass
        writable := ⟨(hwr.2.2 i hi).1,(hwr.2.2 i hi).2,hwr.1,hwr.2.1⟩ }
    exact (hst.refundable hw hpayable hpasses h.at.address h.owner (hat hi).isPda hpda h.party
      (hpay.plain i hi)).1
  · rw [legsOf, List.map_map]
    refine List.Nodup.map_on ?_ List.nodup_range
    intro i hi j hj he
    rw [List.mem_range] at hi hj
    change vault i = vault j at he
    have hplace := (hat hi).inj hc (he ▸ hat hj)
    rw [Place.bvault.injEq] at hplace
    have hbyte := congrArg UInt8.toNat hplace.2.2
    rw [UInt8.toNat_ofNat', UInt8.toNat_ofNat', Nat.mod_eq_of_lt (hsmall hi),
      Nat.mod_eq_of_lt (hsmall hj)] at hbyte
    exact hbyte
  · intro l hl l' hl'
    obtain ⟨i,hi,rfl⟩ := List.mem_map.mp hl
    obtain ⟨j,hj,rfl⟩ := List.mem_map.mp hl'
    rw [List.mem_range] at hi hj
    obtain ⟨bump,hfind,hst⟩ := h.stocked i hi
    exact hst.apart hpda (hpay.plain j hj) (hpay.receives j hj)
  · intro l hl t ht
    obtain ⟨i,hi,rfl⟩ := List.mem_map.mp hl
    rw [List.mem_range] at hi
    obtain ⟨t',ht',-,-,-,-,hfits⟩ := hpay.receives i hi
    obtain rfl : t = t' := Option.some_inj.mp (ht.symm.trans ht')
    exact hfits
  · omega

theorem BasketStands.endable (hw : Wellformed E) (hc : E.host.CollisionFree)
    (h : BasketStands E.host s maker nonce basket vault)
    (hpay : BasketPayable E.host s p basket maker vault dest owner) {recipient : Option Pubkey}
    {base : ℕ} (hrec : ∀ i k, recipient = some k → owner i = k)
    (hpass : ∃ a ∈ E.accounts, a.key = p)
    (hwr : E.writable basket ∧ E.writable maker ∧ ∀ i < (byteAt (s basket).data bGiveCount).toNat,
      E.writable (vault i) ∧ E.writable (dest i))
    (hslots : ∀ i < (byteAt (s basket).data bGiveCount).toNat,
      LegSlots E base i (legAt (s basket).data vault dest i)) :
    Endable E s basket maker p maker nonce (s basket).data base recipient
      (bumped (basketSeeds maker nonce) (byteAt (s basket).data bBump)) vault dest
      (List.range (byteAt (s basket).data bGiveCount).toNat) where
  data := rfl
  checked := by
    intro i hi
    rw [List.mem_range] at hi
    obtain ⟨bump,hfind,-⟩ := h.stocked i hi
    obtain ⟨t,ht,-,hmint,hauth,-⟩ := hpay.receives i hi
    refine ⟨?_,hslots i hi,⟨bump,hfind⟩,fun k hk => ⟨t,ht,hmint,hauth.trans (hrec i k hk)⟩⟩
    have hlt : i < maxLeg := hi.trans_le h.record.gives
    rw [h.record.length]
    simp only [maxLeg, bGive, entryLen, basketLen] at *
    omega
  legs := h.releasable hw hc hpay hpass hwr
  last :=
    { owner := h.owner
      writable := ⟨hwr.1,hwr.2.1⟩
      apart := fun he => h.party
        (he ▸ (Place.At.of_find (p := .basket maker nonce) h.sized h.address).isPda)
      room := hpay.room }

/-- A call that ends the basket and pays nothing for it: an expired basket goes
back to the maker, or whoever has the bearer key takes a bearer basket. -/
inductive BasketRelease (H : Host) (s : Ledger) (p basket maker : Pubkey) (nonce : Bytes)
    (vault dest owner : ℕ → Pubkey) (c : Call) : Prop
  | expire (hd : c.data = 17 :: nonce) (ho : ∀ i, owner i = maker)
      (ha : EndAccounts c.env p basket maker 1 2 3 4 (byteAt (s basket).data bGiveCount).toNat
        (legAt (s basket).data vault dest))
      (hmode : byteAt (s basket).data bAuthMode ≠ authBearer)
      (hx : i64At (s basket).data bExpiry ≤ c.env.clock)
  | claim (hd : c.data = 14 :: nonce)
      (ha : EndAccounts c.env p basket maker 2 3 4 5 (byteAt (s basket).data bGiveCount).toNat
        (legAt (s basket).data vault dest))
      (hpayer : ∃ a, c.env.accounts[0]? = some a ∧ a.isSigner = true)
      (hbearer : ∃ a, c.env.accounts[1]? = some a ∧ a.isSigner = true ∧
        keyAt (s basket).data bClaimAuth = H.hash a.key.bytes)
      (hmode : byteAt (s basket).data bAuthMode = authBearer)

theorem BasketStands.ends (hw : Wellformed E) (hc : E.host.CollisionFree) (ht : TokenRules E.host)
    (ha : TokenAccepts E.host) (h : BasketStands E.host s maker nonce basket vault)
    (hpay : BasketPayable E.host s p basket maker vault dest owner)
    {swapIdx makerIdx tokenIdx base : ℕ} {recipient : Option Pubkey}
    (hrec : ∀ i k, recipient = some k → owner i = k)
    (hacc : EndAccounts E p basket maker swapIdx makerIdx tokenIdx base
      (byteAt (s basket).data bGiveCount).toNat (legAt (s basket).data vault dest))
    {x : Exec Unit}
    (hx : ∃ swap mk tp : AccountInfo, swap.key = basket ∧ mk.key = maker ∧ tp.key = p ∧ ∀ {Q F},
      wp x Q F ⟨s,[]⟩ ↔ wp
      (basketEnd E swap mk tp maker nonce
      (bumped (basketSeeds maker nonce) (byteAt (s basket).data bBump)) base recipient
      (List.range (byteAt (s basket).data bGiveCount).toNat)) Q F ⟨s,[]⟩) :
    ((∃ m, x ⟨s,[]⟩ = .ok () m) ↔ ∀ i < (byteAt (s basket).data bGiveCount).toNat,
      Exact s (vault i) (entryAmount (s basket).data bGive i)) ∧
    ∀ m, x ⟨s,[]⟩ = .ok () m →
      Emptied s m.ledger basket maker (legsOf (s basket).data vault dest) := by
  obtain ⟨swap,mk,tp,rfl,rfl,rfl,hx⟩ := hx
  obtain ⟨tk,htk,hkey⟩ := hacc.tokenSlot.getElem
  have hsame : ∀ m, x ⟨s,[]⟩ = .ok () m ↔ basketEnd E swap mk tp mk.key nonce
      (bumped (basketSeeds mk.key nonce) (byteAt (s swap.key).data bBump)) base recipient
      (List.range (byteAt (s swap.key).data bGiveCount).toNat) ⟨s,[]⟩ = .ok () m := by
    intro m
    rw [ok_iff, ok_iff, hx]
  have hendable := h.endable hw hc hpay hrec ⟨tk,List.mem_of_getElem? htk,hkey⟩ hacc.writable
    hacc.slots
  obtain ⟨hiff,hdone⟩ := basketEnd_settles (m := ⟨s,[]⟩) hw ht ha hendable
  simp only [hsame]
  refine ⟨?_,hdone⟩
  simpa only [List.mem_range] using hiff

/-- In every reachable state such a call on a live basket succeeds exactly while
none of the vaults has more than its entry, and then all of them are paid out. -/
theorem basket_release (hs : SystemRules H) (ht : TokenRules H) (ha : TokenAccepts H)
    (hf : Confined H) (hno : NoSeizure H) (hc : H.CollisionFree) (hsys : H.programId ≠ systemId)
    (hg : Genesis H s₀) (hrun : Run H (Assumed H) s₀ s)
    (hk : (Place.basket maker nonce).At H basket) (hl : Live H (s basket))
    (hv : ∀ i < (byteAt (s basket).data bGiveCount).toNat,
      (H.findProgramAddress (bvaultSeeds maker nonce (UInt8.ofNat i)) H.programId).map Prod.fst =
      some (vault i))
    (hpay : BasketPayable H s p basket maker vault dest owner) (hon : c.On H)
    (hcall : BasketRelease H s p basket maker nonce vault dest owner c) :
    ((∃ m, c.result s = some m) ↔ ∀ i < (byteAt (s basket).data bGiveCount).toNat,
      Exact s (vault i) (entryAmount (s basket).data bGive i)) ∧
    ∀ m, c.result s = some m →
      Emptied s m.ledger basket maker (legsOf (s basket).data vault dest) := by
  have h := basket_stands hs ht hf hno hc hsys hg hrun hk hl hv
  obtain ⟨rfl,hw⟩ := hon
  cases hcall with
  | expire hd ho hacc hmode hx =>
    simp only [Call.result_iff hd]
    exact h.ends hw hc ht ha hpay (fun i k hk => (ho i).trans (Option.some_inj.mp hk)) hacc
      (expireBasket_ends (m := ⟨s,[]⟩) h.at hacc hmode hx)
  | claim hd hacc hpayer hbearer hmode =>
    simp only [Call.result_iff hd]
    exact h.ends hw hc ht ha hpay (fun i k hk => absurd hk (by simp)) hacc
      (claimBearer_ends (m := ⟨s,[]⟩) h.at hacc hpayer hbearer hmode)

end

section
open Xete.Market Xete.Reference

def pairVault : ℕ → Pubkey
  | 0 => bvaultKey
  | _ => bvaultKeyB

def pairGive : ℕ → ℕ
  | 0 => 60
  | _ => 40

def pairWant : ℕ → ℕ
  | 0 => 300
  | _ => 200

structure PairsStand (s : Ledger) : Prop where
  live : Live market (s basketKey)
  gives : (byteAt (s basketKey).data bGiveCount).toNat = 2
  wants : (byteAt (s basketKey).data bWantCount).toNat = 2
  give : ∀ i < 2, entryMint (s basketKey).data bGive i = mintA ∧
    entryAmount (s basketKey).data bGive i = pairGive i
  want : ∀ j < 2, entryMint (s basketKey).data bWant j = mintB ∧
    entryAmount (s basketKey).data bWant j = pairWant j
  mode : byteAt (s basketKey).data bAuthMode = authNormal
  expiry : i64At (s basketKey).data bExpiry = 1000
  anyone : keyAt (s basketKey).data bTaker = zeroKey
  config : s configKey = ⟨1,programKey,configData⟩
  vaults : ∀ i < 2, Ordinary s splTokenId (pairVault i) ∧ Exact s (pairVault i) (pairGive i)
  isMint : IsMint splTokenId s mintB
  back : Receives s splTokenId makerA mintA Market.maker 100
  goods : Receives s splTokenId takerA mintA Market.taker 100
  purse : Receives s splTokenId takerB mintB Market.taker 0 ∧ 500 ≤ balance s takerB
  proceeds : Receives s splTokenId makerB mintB Market.maker 495
  fee : Receives s splTokenId feeB mintB Market.feeWallet 5
  room : (s Market.maker).lamports+((s bvaultKey).lamports+(s bvaultKeyB).lamports)+
    (s basketKey).lamports ≤ u64Max
  wallet : tokenAt s Market.maker = none

instance {n : ℕ} : Decidable (Exact s p n) :=
  decidable_of_iff (∃ t ∈ tokenAt s p, t.amount = n) Iff.rfl

theorem pairs_opened : ∃ m : Machine, (openPairsCall 60 40 300 200).result start = some m ∧
    Run market (Assumed market) start m.ledger ∧ PairsStand m.ledger := by
  have h : ((openPairsCall 60 40 300 200).result start).any (fun m =>
      decide (GenuineTokens (m.trace.map Event.act) ∧ Live market (m.ledger basketKey) ∧
        (byteAt (m.ledger basketKey).data bGiveCount).toNat = 2 ∧
        (byteAt (m.ledger basketKey).data bWantCount).toNat = 2) &&
      (decide ((∀ i : ℕ, i < 2 → entryMint (m.ledger basketKey).data bGive i = mintA ∧
          entryAmount (m.ledger basketKey).data bGive i = pairGive i) ∧
        ∀ j : ℕ, j < 2 → entryMint (m.ledger basketKey).data bWant j = mintB ∧
          entryAmount (m.ledger basketKey).data bWant j = pairWant j) &&
      (decide (byteAt (m.ledger basketKey).data bAuthMode = authNormal ∧
        i64At (m.ledger basketKey).data bExpiry = 1000 ∧
        keyAt (m.ledger basketKey).data bTaker = zeroKey ∧
        m.ledger configKey = ⟨1,programKey,configData⟩) &&
      (decide ((∀ i : ℕ, i < 2 → Ordinary m.ledger splTokenId (pairVault i) ∧
          Exact m.ledger (pairVault i) (pairGive i)) ∧
        IsMint splTokenId m.ledger mintB ∧
        Receives m.ledger splTokenId makerA mintA Market.maker 100 ∧
        Receives m.ledger splTokenId takerA mintA Market.taker 100) &&
      (decide ((Receives m.ledger splTokenId takerB mintB Market.taker 0 ∧
          500 ≤ balance m.ledger takerB) ∧
        Receives m.ledger splTokenId makerB mintB Market.maker 495 ∧
        Receives m.ledger splTokenId feeB mintB Market.feeWallet 5) &&
      decide ((m.ledger Market.maker).lamports+((m.ledger bvaultKey).lamports+
          (m.ledger bvaultKeyB).lamports)+(m.ledger basketKey).lamports ≤ u64Max ∧
        tokenAt m.ledger Market.maker = none)))))) = true := by
    decide +kernel
  simp only [Option.any_eq_true, Bool.and_eq_true, decide_eq_true_eq] at h
  obtain ⟨m,hm,⟨hg,hlive,hgives,hwants⟩,⟨hgive,hwant⟩,⟨hmode,hexpiry,hanyone,hconfig⟩,
    ⟨hvaults,hmint,hback,hgoods⟩,⟨hpurse,hproceeds,hfee⟩,hroom,hwallet⟩ := h
  have hon : (openPairsCall 60 40 300 200).On market := sees_on _ _ _ _ (by decide)
  refine ⟨m,hm,.single ⟨_,.call _ _ m hon hm,assumed_call (by decide) hm hg⟩,?_⟩
  exact ⟨hlive,hgives,hwants,hgive,hwant,hmode,hexpiry,hanyone,hconfig,hvaults,hmint,hback,hgoods,
    hpurse,hproceeds,hfee,hroom,hwallet⟩

section
variable {dest owner : Pubkey} (h : PairsStand s)
include h

theorem PairsStand.leg {i : ℕ} (hi : i < 2) :
    legAt (s basketKey).data pairVault (fun _ => dest) i = ⟨mintA,pairVault i,dest,pairGive i⟩ := by
  rw [legAt, (h.give i hi).1, (h.give i hi).2]

theorem PairsStand.twoLegs : legsOf (s basketKey).data pairVault (fun _ => dest) =
    [⟨mintA,bvaultKey,dest,60⟩,⟨mintA,bvaultKeyB,dest,40⟩] := by
  rw [legsOf, h.gives]
  show [legAt _ _ _ 0,legAt _ _ _ 1] = _
  rw [h.leg (by decide), h.leg (by decide)]
  rfl

/-- Both entries go to one account, which has room for them together. -/
theorem PairsStand.payable (hr : Receives s splTokenId dest mintA owner 100)
    (hplain : ¬market.IsPda owner) : BasketPayable market s splTokenId basketKey Market.maker
      pairVault (fun _ => dest) (fun _ => owner) where
  program := .inl rfl
  ordinary i hi := (h.vaults i (h.gives ▸ hi)).1
  receives i hi := by
    rw [(h.give i (h.gives ▸ hi)).1, h.twoLegs]
    exact hr
  plain _ _ := hplain
  room := by
    rw [h.twoLegs]
    exact h.room

theorem PairsStand.addresses : ∀ i < (byteAt (s basketKey).data bGiveCount).toNat,
    (market.findProgramAddress (bvaultSeeds Market.maker Market.nonce (UInt8.ofNat i))
      market.programId).map Prod.fst = some (pairVault i) := by
  rw [h.gives]
  decide

theorem PairsStand.exacts : ∀ i < (byteAt (s basketKey).data bGiveCount).toNat,
    Exact s (pairVault i) (entryAmount (s basketKey).data bGive i) := by
  intro i hi
  rw [h.gives] at hi
  rw [(h.give i hi).2]
  exact (h.vaults i hi).2

end

def expirePairsCall : Call where
  env := sees 2000 taker [basketKey,Market.maker,splTokenId,mintA,bvaultKey,makerA,mintA,bvaultKeyB,
    makerA]
  data := 17 :: Market.nonce

/-- An expired basket, whose entries go back to one account. -/
theorem basket_release_expired : ∃ m₁ m₂ : Machine,
    (openPairsCall 60 40 300 200).result start = some m₁ ∧
    expirePairsCall.result m₁.ledger = some m₂ ∧ Emptied m₁.ledger m₂.ledger basketKey Market.maker
      [⟨mintA,bvaultKey,makerA,60⟩,⟨mintA,bvaultKeyB,makerA,40⟩] := by
  obtain ⟨m₁,h₁,hrun,h⟩ := pairs_opened
  have hplain : ¬market.IsPda Market.maker :=
    (sees_wellformed 0 Market.maker [] (by decide)).signers ⟨Market.maker,true,true⟩ (by decide) rfl
  have hacc : EndAccounts expirePairsCall.env splTokenId basketKey Market.maker 1 2 3 4
      (byteAt (m₁.ledger basketKey).data bGiveCount).toNat
      (legAt (m₁.ledger basketKey).data pairVault (fun _ => makerA)) := by
    rw [h.gives]
    constructor
    · rfl
    · rfl
    · rfl
    · rfl
    · intro i hi
      rw [h.leg hi]
      obtain rfl | rfl : i = 0 ∨ i = 1 := by omega
      · exact ⟨rfl,rfl,rfl⟩
      · exact ⟨rfl,rfl,rfl⟩
    · refine ⟨by decide,by decide,fun i hi => ?_⟩
      rw [h.leg hi]
      obtain rfl | rfl : i = 0 ∨ i = 1 := by omega
      · exact ⟨by decide,by decide⟩
      · exact ⟨by decide,by decide⟩
  obtain ⟨hiff,hdone⟩ := basket_release (c := expirePairsCall) (host_systemRules _ _)
    (host_tokenRules _ _) (host_tokenAccepts _ _) market_confined market_noSeizure
    market_collisionFree market_apart.notSystem start_genesis hrun
    (⟨rfl,255,by decide⟩ : (Place.basket Market.maker Market.nonce).At market basketKey) h.live
    h.addresses (h.payable h.back hplain) (sees_on _ _ _ _ (by decide))
    (.expire rfl (fun _ => rfl) hacc (by rw [h.mode]; decide) (by rw [h.expiry]; decide))
  obtain ⟨m₂,h₂⟩ := hiff.mpr h.exacts
  rw [h.twoLegs] at hdone
  exact ⟨m₁,m₂,h₁,h₂,hdone m₂ h₂⟩

end

end Xete.Swap
