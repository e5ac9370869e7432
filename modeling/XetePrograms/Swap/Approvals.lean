import XetePrograms.Solana.Approval
import XetePrograms.Swap.Supplied
import XetePrograms.Swap.Market
import XetePrograms.Swap.Reach

/-!
# Listings that share a token account

Two listings of one maker have records of their own, and yet they meet in the
delegate of a token account that both give from. A call on one listing leaves
the approval of the other unless it approves or revokes on that very account.
-/

set_option autoImplicit false

namespace Xete.Swap
open Xete.Octets Xete.Weakest Xete.Chain Xete.Token Xete.Runtime Xete.Rules

variable {E : Env} {tag : UInt8} {d : Bytes} {m m' : Machine} {s s' : Ledger} {k source : Pubkey}
  {n : ℕ}

/-! ## Acts that spare an approval -/

def Spares (k source : Pubkey) : Act → Prop
  | .invoke (.createAccount ..) _ => True
  | .invoke (.transferLamports ..) _ => True
  | .invoke (.transferChecked p from' _ _ auth _ _) _ => IsTokenProgram p ∧
    (source ≠ from' ∨ auth ≠ k)
  | .invoke (.approve p from' _ _ _) _ => IsTokenProgram p ∧ source ≠ from'
  | .invoke (.revoke p from' _) _ => IsTokenProgram p ∧ source ≠ from'
  | .invoke _ _ => False
  | .write _ _ => True
  | .close _ _ => True
  | .log _ => True

/-- Writing and closing accounts of the program leaves the delegates alone. -/
theorem own_approval {a : Act} (hw : Wellformed E) (htok : IsTokenProgram (s source).owner)
    (h : a.effect E s = some s') (ha : (∃ j b, a = .write j b) ∨ ∃ j dest, a = .close j dest) :
    approvalAt s' source = approvalAt s source := by
  have hne : ∀ j, (s j).owner = E.programId → source ≠ j := by
    rintro j hj rfl
    exact hw.notToken (hj ▸ htok)
  rcases ha with ⟨j,b,rfl⟩ | ⟨j,dest,rfl⟩
  all_goals
    simp only [Act.effect] at h
    split at h
  · rename_i hc
    cases h
    rw [approvalAt_congr s _ source (by simp) (by rw [setData_other _ _ _ _ (hne j hc.1)])]
  · cases h
  · rename_i hc
    cases h
    rw [approvalAt_congr s _ source (by simp) (drain_other _ _ _ _ (hne j hc.1)).1]
  · cases h

theorem approval_owner {p : Pubkey × ℕ} (h : approvalAt s source = some p) :
    IsTokenProgram (s source).owner := by
  obtain ⟨t,ht,-⟩ := approvalAt_token h
  exact (tokenAt_some _ _ _ ht).1

theorem spares_effect (hs : SystemRules E.host) (ht : TokenRules E.host) (hr : ApprovalRules E.host)
    (hw : Wellformed E) {a : Act} (ha : Spares k source a) (h : a.effect E s = some s')
    (happ : approvalAt s source = some (k,n)) : approvalAt s' source = some (k,n) := by
  have htok := approval_owner happ
  cases a with
  | write j b => rw [own_approval hw htok h (.inl ⟨j,b,rfl⟩), happ]
  | close j dest => rw [own_approval hw htok h (.inr ⟨j,dest,rfl⟩), happ]
  | log b =>
    cases h
    exact happ
  | invoke c seeds =>
    simp only [Act.effect] at h
    split at h
    · cases c with
      | createAccount payer acct n space owner =>
        obtain ⟨hv,-,-,hrest⟩ := hs.create _ _ _ _ _ _ _ h
        have hne : source ≠ acct := by
          rintro rfl
          rw [hv.1] at htok
          exact absurd htok (by decide)
        rw [approvalAt_congr s _ source (hrest source hne).1 (hrest source hne).2.1, happ]
      | transferLamports from' dest n =>
        have hrest := hs.transfer _ _ _ _ _ h source
        rw [approvalAt_congr s _ source hrest.1 hrest.2.1, happ]
      | transferChecked p from' mint dest auth n dec =>
        exact hr.transfer _ _ _ _ _ _ _ _ _ _ _ _ ha.1 h happ ha.2
      | approve p from' delegate auth n =>
        obtain ⟨ho,hd⟩ := ht.approve _ _ _ _ _ _ _ ha.1 h
        rw [approvalAt_congr s _ source (ho source).1 (hd source ha.2), happ]
      | revoke p from' auth =>
        obtain ⟨ho,hd⟩ := ht.revoke _ _ _ _ _ ha.1 h
        rw [approvalAt_congr s _ source (ho source).1 (hd source ha.2), happ]
      | _ => exact ha.elim
    · cases h

/-- Acts that all spare an approval, by induction on them. -/
theorem spares_did (hs : SystemRules E.host) (ht : TokenRules E.host) (hr : ApprovalRules E.host)
    (hw : Wellformed E) {as : List Act} (ha : ∀ a ∈ as, Spares k source a) (h : Did E as m m')
    (happ : approvalAt m.ledger source = some (k,n)) :
    approvalAt m'.ledger source = some (k,n) := by
  induction as generalizing m with
  | nil =>
    rw [did_nil] at h
    rw [h, happ]
  | cons a as ih =>
    obtain ⟨s₁,he,hd⟩ := h
    exact ih (fun b hb => ha b (by simp [hb])) hd
      (spares_effect hs ht hr hw (ha a (by simp)) he happ)

/-! ## What the calls on a listing do to the delegates -/

structure Approved (E : Env) (m m' : Machine) (listing source tokenProg : Pubkey) (n : ℕ) :
    Prop where
  slot : SlotIs E 1 listing
  account : SlotIs E 4 source
  program : SlotIs E 5 tokenProg
  known : IsTokenProgram tokenProg
  fits : n ≤ u64Max
  did : ∃ maker seeds ev b, Did E [createAct E maker listing swapLen E.programId seeds,.log ev,
    .invoke (.approve tokenProg source listing maker n) none,.write listing b] m m'

theorem list_approves : wp (list E d)
    (fun _ m' => ∃ listing source tokenProg n, Approved E m m' listing source tokenProg n)
    (fun _ => True) m := by
  simp [list]
  intro _ _ _
  split
  · rename_i maker listing giveMint wantMint makerGive tokenProg system config aliasAcct ha
    simp [createPda, tokenApprove, emitPostCreated]
    intro _ _ _ _ htp _ _ _ listingPda bump hk he s₁ h₁ s₂ h₂ s₃ h₃ s₄ h₄
    subst he
    exact ⟨listing.key,makerGive.key,tokenProg.key,u64At d 32,
      { slot := by simp [SlotIs, ha]
        account := by simp [SlotIs, ha]
        program := by simp [SlotIs, ha]
        known := htp
        fits := u64At_le _ _
        did := ⟨maker.key,_,_,_,s₁,h₁,s₂,h₂,s₃,h₃,s₄,h₄,rfl⟩ }⟩
  · trivial

structure Revoked (E : Env) (m m' : Machine) (listing source tokenProg : Pubkey) : Prop where
  slot : SlotIs E 1 listing
  account : SlotIs E 3 source
  program : SlotIs E 4 tokenProg
  did : ∃ maker wallet fee, Did E (delistActs maker wallet fee ++
    [.invoke (.revoke tokenProg source maker) none,.close listing maker]) m m'

theorem cancelListing_revokes : wp (cancelListing E d)
    (fun _ m' => ∃ listing source tokenProg, Revoked E m m' listing source tokenProg)
    (fun _ => True) m := by
  simp [cancelListing]
  intro _
  split
  · rename_i maker listing giveMint makerGive tokenProg config feeWallet system ha
    simp
    intro _ _ _ _ _ _ _ listingPda bump hk he
    subst he
    refine wp_mono (payDelistFee_did _ _) ?_ (fun _ _ => trivial)
    rintro _ m₁ hpre
    simp [tokenRevoke]
    intro s₁ h₁ s₂ h₂
    exact ⟨listing.key,makerGive.key,tokenProg.key,
      { slot := by simp [SlotIs, ha]
        account := by simp [SlotIs, ha]
        program := by simp [SlotIs, ha]
        did := ⟨maker.key,_,_,(did_append _ _ m _).mpr ⟨m₁,hpre,s₁,h₁,s₂,h₂,rfl⟩⟩ }⟩
  · trivial

def Redelegates (tag : UInt8) (E : Env) (source : Pubkey) : Prop :=
  tag = 26 ∧ SlotIs E 4 source ∨ tag = 28 ∧ SlotIs E 3 source

instance (tag : UInt8) (E : Env) (source : Pubkey) : Decidable (Redelegates tag E source) := by
  unfold Redelegates SlotIs; infer_instance

/-- What the address `k` may move out of `source` covers what its listing gives, and
is accepted for as long as `source` holds that much. -/
def GivesFrom (H : Host) (k source : Pubkey) (s : Ledger) : Prop :=
  ∀ p mint dest ts td, IsTokenProgram p → IsMint p s mint → tokenAt s source = some ts →
    tokenAt s dest = some td → ts.program = p → td.program = p → ts.mint = mint → td.mint = mint →
    ts.frozen = false → td.frozen = false → source ≠ dest → u64At (s k).data sGiveAmt ≤ ts.amount →
    td.amount+u64At (s k).data sGiveAmt ≤ u64Max →
      ∃ s', H.process (.transferChecked p source mint dest k (u64At (s k).data sGiveAmt)
        (mintDecimalsAt s mint)) s = some s'

structure Standing (E : Env) (k source : Pubkey) (n : ℕ) (s : Ledger) : Prop where
  isOpen : IsSwap E s k
  approval : approvalAt s source = some (k,n)
  covers : u64At (s k).data sGiveAmt ≤ n

theorem Standing.gives (hr : ApprovalRules E.host) (h : Standing E k source n s) :
    GivesFrom E.host k source s :=
  fun p mint dest ts td hp hm hs hd hsp hdp hsm hdm hsf hdf hne hle hfit =>
    hr.spend p source mint dest k _ n s ts td hp hm hs hd hsp hdp hsm hdm hsf hdf hne h.approval
      h.covers hle hfit

/-- The record at `k` was left alone. -/
theorem did_record {as : List Act} (hw : Wellformed E) (hf : Confined E.host)
    (ho : (m.ledger k).owner = E.programId) (h : Did E as m m') (ht : ¬TouchedIn as k) :
    (m'.ledger k).owner = (m.ledger k).owner ∧ (m'.ledger k).data = (m.ledger k).data := by
  obtain ⟨ho',hd,-⟩ := (ran_frame hw hf as h.ran).owned k ho ht
  exact ⟨ho'.trans ho.symm,hd⟩

structure Beside (E : Env) (tag : UInt8) (k source : Pubkey) (n : ℕ) (s s' : Ledger) : Prop where
  owner : (s' k).owner = (s k).owner
  data : (s' k).data = (s k).data
  approval : approvalAt s' source = some (k,n) ↔ ¬Redelegates tag E source

theorem not_redelegates (h₁ : tag ≠ 26) (h₂ : tag ≠ 28) : ¬Redelegates tag E source := by
  rintro (⟨h,-⟩ | ⟨h,-⟩)
  · exact h₁ h
  · exact h₂ h

theorem IsPayment.spares {tokenProg from' mint taker : Pubkey} {as : List Act}
    (h : IsPayment tokenProg from' mint taker as) (hp : IsTokenProgram tokenProg)
    (hne : taker ≠ k) :
    ∀ a ∈ as, Spares k source a := by
  intro a ha
  obtain ⟨dest,x,dec,rfl⟩ := h a ha
  exact ⟨hp,.inr hne⟩

section
variable {j : Pubkey} (hs : SystemRules E.host) (ht : TokenRules E.host) (hr : ApprovalRules E.host)
  (hf : Confined E.host) (hw : Wellformed E)
include hs ht hr hf hw

theorem Approved.beside {from' tokenProg : Pubkey} {x : ℕ} (h : Approved E m m' j from' tokenProg x)
    (hne : j ≠ k) (ho : (m.ledger k).owner = E.programId)
    (happ : approvalAt m.ledger source = some (k,n)) :
    Beside E 26 k source n m.ledger m'.ledger := by
  obtain ⟨maker,seeds,ev,b,hd⟩ := h.did
  obtain ⟨hown,hdata⟩ := did_record hw hf ho hd (by simp [createAct, Ne.symm hne])
  refine ⟨hown,hdata,fun hkeep hre => ?_,fun hre => ?_⟩
  · -- the approval of the new listing took the place of the other one
    have hsrc : from' = source := by
      rcases hre with ⟨-,hslot⟩ | ⟨htag,-⟩
      · exact h.account.inj hslot
      · exact absurd htag (by decide)
    subst hsrc
    obtain ⟨s₁,h₁,s₂,h₂,s₃,h₃,s₄,h₄,rfl⟩ := hd
    simp only [Act.effect] at h₃
    split at h₃
    · have hnew := hr.approve _ _ _ _ _ _ _ h.known h.fits h₃
      have hlast := own_approval hw (approval_owner hnew) h₄ (.inl ⟨j,b,rfl⟩)
      have hsame : some (j,x) = some (k,n) := by
        rw [← hnew, ← hkeep]
        exact hlast.symm
      cases hsame
      exact hne rfl
    · cases h₃
  · have hsrc : source ≠ from' := by
      rintro rfl
      exact hre (.inl ⟨rfl,h.account⟩)
    refine spares_did hs ht hr hw ?_ hd happ
    simp [createAct, Spares, h.known, hsrc]

theorem Revoked.beside {from' tokenProg : Pubkey} (h : Revoked E m m' j from' tokenProg)
    (hsup : Supplied 28 E.accounts) (hne : j ≠ k) (ho : (m.ledger k).owner = E.programId)
    (happ : approvalAt m.ledger source = some (k,n)) :
    Beside E 28 k source n m.ledger m'.ledger := by
  obtain ⟨a,ha,rfl⟩ := h.program.getElem
  have hp : IsTokenProgram a.key := hsup 4 (by simp [tokenSlots]) a ha
  obtain ⟨maker,wallet,fee,hd⟩ := h.did
  have hidle := idle_delistActs (E := E) maker wallet fee
  obtain ⟨hown,hdata⟩ := did_record hw hf ho hd
    (by simp [hidle.2, Ne.symm hne])
  have hpre : ∀ b ∈ delistActs maker wallet fee, Spares k source b := by
    unfold delistActs
    split <;> simp [Spares]
  refine ⟨hown,hdata,fun hkeep hre => ?_,fun hre => ?_⟩
  · -- the delegate is gone, whoever it was
    have hsrc : from' = source := by
      rcases hre with ⟨htag,-⟩ | ⟨-,hslot⟩
      · exact absurd htag (by decide)
      · exact h.account.inj hslot
    subst hsrc
    obtain ⟨m₁,hd₁,s₂,h₂,s₃,h₃,rfl⟩ := (did_append _ _ _ _).mp hd
    have htok := approval_owner (spares_did hs ht hr hw hpre hd₁ happ)
    simp only [Act.effect] at h₂
    split at h₂
    · have hgone := hr.revoke _ _ _ _ _ hp h₂
      rw [← (ht.revoke _ _ _ _ _ hp h₂).1 from' |>.1] at htok
      have hlast := own_approval hw htok h₃ (.inr ⟨j,maker,rfl⟩)
      rw [hgone] at hlast
      rw [next_ledger, hlast] at hkeep
      cases hkeep
    · cases h₂
  · have hsrc : source ≠ from' := by
      rintro rfl
      exact hre (.inr ⟨rfl,h.account⟩)
    refine spares_did hs ht hr hw ?_ hd happ
    intro b hb
    rcases List.mem_append.mp hb with hb | hb
    · exact hpre b hb
    · rcases List.mem_cons.mp hb with rfl | hb
      · exact ⟨hp,hsrc⟩
      · rw [List.mem_singleton.mp hb]
        trivial

theorem FilledToken.beside {m₁ : Machine} {keys : RecordKeys} {p : Payment}
    {prog from' dest : Pubkey} {dec : UInt8}
    (h : FilledToken E d m m₁ m' keys p prog from' dest dec) (hj : SlotIs E 1 j)
    (hk : E.host.IsPda k) (hne : j ≠ k) (ho : (m.ledger k).owner = E.programId)
    (happ : approvalAt m.ledger source = some (k,n)) :
    Beside E 27 k source n m.ledger m'.ledger := by
  obtain rfl := hj.inj h.slot
  have hpay := isPayment_royaltyPriceActs keys.toPriceKeys
    (u64At (m.ledger keys.record).data sWantAmt)
    (feeAt m.ledger keys.config (u64At (m.ledger keys.record).data sWantAmt)) p
  have htaker : keys.taker ≠ k := by
    intro he
    obtain ⟨a,ha,hak,hsign⟩ := h.signed
    exact hw.signers a ha hsign (hak ▸ he ▸ hk)
  have hd := (did_append _ _ m m').mpr ⟨m₁,h.paid.did,h.did⟩
  obtain ⟨hown,hdata⟩ := did_record hw hf ho hd (by simp [hpay.touches, Ne.symm hne])
  refine ⟨hown,hdata,fun _ => not_redelegates (by decide) (by decide),fun _ => ?_⟩
  refine spares_did hs ht hr hw ?_ hd happ
  intro b hb
  rcases List.mem_append.mp hb with hb | hb
  · exact hpay.spares h.tokenProg htaker b hb
  · rcases List.mem_cons.mp hb with rfl | hb
    · exact ⟨h.program,.inr hne⟩
    · rw [List.mem_singleton.mp hb]
      trivial

theorem ExpiredListing.beside {nonce : Bytes} {maker listing : Pubkey}
    (h : ExpiredListing E nonce m m' maker listing) (hj : SlotIs E 1 j) (hne : j ≠ k)
    (ho : (m.ledger k).owner = E.programId) (happ : approvalAt m.ledger source = some (k,n)) :
    Beside E 29 k source n m.ledger m'.ledger := by
  obtain rfl := hj.inj h.slot
  obtain ⟨hown,hdata⟩ := did_record hw hf ho h.did (by simp [Ne.symm hne])
  refine ⟨hown,hdata,fun _ => not_redelegates (by decide) (by decide),fun _ => ?_⟩
  exact spares_did hs ht hr hw (by simp [Spares]) h.did happ

end

def listingCalls : List UInt8 := [26,27,28,29]

/-- A successful call on one listing leaves the record of any other as it was. It
leaves its approval unless it approves or revokes on the very account that the
approval stands on, and then the other can still hand over what it gives. -/
theorem listing_beside {H : Host} {c : Call} {maker : Pubkey} {nonce : Bytes} {j : Pubkey}
    (hs : SystemRules H) (ht : TokenRules H) (hr : ApprovalRules H) (hf : Confined H) (ho : c.On H)
    (hres : c.result s = some m) (hdata : c.data = tag :: d) (htag : tag ∈ listingCalls)
    (hsup : Supplied tag c.env.accounts) (hj : SlotIs c.env 1 j)
    (hk : (Place.listing maker nonce).At H k) (hne : j ≠ k) (hst : Standing c.env k source n s) :
    Beside c.env tag k source n s m.ledger ∧
      (¬Redelegates tag c.env source → GivesFrom H k source m.ledger) := by
  obtain ⟨rfl,hw⟩ := ho
  have hbeside : Beside c.env tag k source n s m.ledger := by
    obtain ⟨tag',d',hdata',hh⟩ := Call.handled hres
    rw [hdata] at hdata'
    cases hdata'
    have hown := hst.isOpen.owner
    have happ := hst.approval
    simp only [listingCalls, List.mem_cons, List.not_mem_nil, or_false] at htag
    rcases htag with rfl | rfl | rfl | rfl
    · obtain ⟨listing,from',tokenProg,x,h⟩ := wp_ok list_approves hh
      obtain rfl := hj.inj h.slot
      exact h.beside hs ht hr hf hw hne hown happ
    · obtain ⟨m₁,keys,p,prog,from',dest,dec,h⟩ := wp_ok fillListing_did hh
      exact h.beside hs ht hr hf hw hj hk.isPda hne hown happ
    · obtain ⟨listing,from',tokenProg,h⟩ := wp_ok cancelListing_revokes hh
      obtain rfl := hj.inj h.slot
      exact h.beside hs ht hr hf hw hsup hne hown happ
    · obtain ⟨maker',listing,h⟩ := wp_ok expireListing_did hh
      exact h.beside hs ht hr hf hw hj hne hown happ
  refine ⟨hbeside,fun hre => ?_⟩
  have hafter : Standing c.env k source n m.ledger :=
    { isOpen := ⟨hbeside.owner.trans hst.isOpen.owner,by rw [hbeside.data, hst.isOpen.length],
        by rw [hbeside.data, hst.isOpen.isOpen]⟩
      approval := hbeside.approval.mpr hre
      covers := hbeside.data ▸ hst.covers }
  exact hafter.gives hr

section
open Xete.Market Xete.Reference

def secondNonce : Bytes := 1 :: zeros 31
def secondKey : Pubkey := keyOf 32

def pairTable : Table := stallTable ++
  [((bumped (Place.listing maker secondNonce).seeds 255).flatten,programKey,secondKey)]

def pair : Host := host programKey pairTable

def pairSees (clock : ℤ) (signer : Pubkey) (others : List Pubkey) : Env :=
  { sees clock signer others with host := pair }

theorem pairSees_on (clock : ℤ) (signer : Pubkey) (others : List Pubkey) (d : Bytes)
    (h : signer ∉ pairTable.map fun e => e.2.2) :
    (⟨pairSees clock signer others,d⟩ : Call).On pair where
  host := rfl
  wellformed :=
    { signers := by
        intro a ha hs hp
        rcases List.mem_cons.mp ha with rfl | ha
        · exact h (host_isPda _ _ _ hp)
        · obtain ⟨k,-,rfl⟩ := List.mem_map.mp ha
          cases hs
      notSystem := market_apart.notSystem
      notToken := market_apart.notToken
      notCore := market_apart.notCore }

def listPairCall (listing giveMint wantMint from' : Pubkey) (nonce : Bytes) : Call where
  env := pairSees 0 maker [listing,giveMint,wantMint,from',splTokenId,systemId,configKey,systemId]
  data := 26 :: nonce ++ le 8 100 ++ le 8 50 ++ zeros 32 ++ leInt 8 1000 ++ zeros 32 ++ [0,0]

def cancelPairCall (giveMint from' : Pubkey) : Call where
  env := pairSees 0 maker [listingKey,giveMint,from',splTokenId,configKey,feeWallet,systemId]
  data := 28 :: nonce

def fillSecondCall : Call where
  env := pairSees 1 taker [secondKey,maker,mintA,mintB,makerA,takerA,takerB,makerB,splTokenId,
    configKey,feeB]
  data := 27 :: secondNonce ++ le 8 100 ++ le 8 50

theorem listing_beside_cancelled :
    ∃ s m, runCalls [listPairCall listingKey mintB mintA makerB nonce,
    listPairCall secondKey mintA mintB makerA secondNonce] stallStart = some s ∧
    (cancelPairCall mintB makerB).result s = some m ∧
    Beside (cancelPairCall mintB makerB).env 28 secondKey makerA 100 s m.ledger ∧
    (¬Redelegates 28 (cancelPairCall mintB makerB).env makerA →
      GivesFrom pair secondKey makerA m.ledger) := by
  have h : ((runCalls [listPairCall listingKey mintB mintA makerB nonce,
      listPairCall secondKey mintA mintB makerA secondNonce] stallStart).any fun s =>
        ((cancelPairCall mintB makerB).result s).isSome &&
          decide ((s secondKey).owner = programKey ∧ (s secondKey).data.length = swapLen ∧
            byteAt (s secondKey).data sStatus = statusOpen ∧ approvalAt s makerA =
              some (secondKey,100) ∧
            u64At (s secondKey).data sGiveAmt ≤ 100)) = true := by
    decide +kernel
  simp only [Option.any_eq_true, Bool.and_eq_true, decide_eq_true_eq, Option.isSome_iff_exists] at h
  obtain ⟨s,hs,⟨m,hm⟩,ho,hl,hst,happ,hle⟩ := h
  have hsup : Supplied 28 (cancelPairCall mintB makerB).env.accounts := by
    intro i hi a ha
    obtain rfl : i = 4 := by simpa [tokenSlots] using hi
    cases ha
    decide
  have hk : (Place.listing maker secondNonce).At pair secondKey := ⟨rfl,255,by decide⟩
  have hj : SlotIs (cancelPairCall mintB makerB).env 1 listingKey := rfl
  exact ⟨s,m,hs,hm,listing_beside (H := pair) (host_systemRules _ _) (host_tokenRules _ _)
    (host_approvalRules _ _)
    (host_confined _ _ market_apart) (pairSees_on _ _ _ _ (by decide)) hm rfl (by decide) hsup
    hj hk (by decide) ⟨⟨ho,hl,hst⟩,happ,hle⟩⟩

/-- Both listings give from the same account. Cancelling the first takes the
approval of the second, which could be filled before and cannot be any more. -/
theorem cancel_takes_approval : ∃ s m, runCalls [listPairCall listingKey mintA mintB makerA nonce,
    listPairCall secondKey mintA mintB makerA secondNonce] stallStart = some s ∧
    approvalAt s makerA = some (secondKey,100) ∧ (fillSecondCall.result s).isSome ∧
    (cancelPairCall mintA makerA).result s = some m ∧ approvalAt m.ledger makerA = none ∧
    (tokenAt m.ledger makerA).map TokenAccount.amount = some 1000 ∧
    fillSecondCall.result m.ledger = none := by
  have h : ((runCalls [listPairCall listingKey mintA mintB makerA nonce,
      listPairCall secondKey mintA mintB makerA secondNonce] stallStart).any fun s =>
        decide (approvalAt s makerA = some (secondKey,100)) && (fillSecondCall.result s).isSome &&
          ((cancelPairCall mintA makerA).result s).any fun m =>
            decide (approvalAt m.ledger makerA = none ∧
              (tokenAt m.ledger makerA).map TokenAccount.amount = some 1000) &&
              (fillSecondCall.result m.ledger).isNone) = true := by
    decide +kernel
  simp only [Option.any_eq_true, Bool.and_eq_true, decide_eq_true_eq, Option.isNone_iff_eq_none]
    at h
  obtain ⟨s,hs,⟨happ,hfill⟩,m,hm,⟨hgone,hamt⟩,hnone⟩ := h
  exact ⟨s,m,hs,happ,hfill,hm,hgone,hamt,hnone⟩

end

end Xete.Swap
