import XetePrograms.Swap.BasketTrace
import XetePrograms.Swap.OfferTrace

/-!
# The acts of opening a basket

The record grows field by field while the legs are escrowed. After `n` legs it
is the zeros overwritten with the header, the want entries and the first `n`
give entries.
-/

set_option autoImplicit false

namespace Xete.Swap
open Xete.Octets Xete.Weakest Xete.Chain Xete.Token Xete.Runtime Xete.Rules

variable {E : Env} {m m' : Machine} {d : Bytes}

def giveCount (d : Bytes) : ℕ := (byteAt d 32).toNat
def wantCount (d : Bytes) : ℕ := (byteAt d 33).toNat
def wantOff (d : Bytes) : ℕ := 34+giveCount d*8
def tailOff (d : Bytes) : ℕ := wantOff d+wantCount d*entryLen

def giveMintAt (E : Env) (i : ℕ) : Pubkey := (E.accounts[6+i*3]?.map AccountInfo.key).getD zeroKey

def giveAmountAt (d : Bytes) (i : ℕ) : ℕ := u64At d (34+i*8)

def headerFields (maker : Pubkey) (d : Bytes) (bump : UInt8) : List (ℕ × Bytes) :=
  basketHeader maker (giveCount d) (wantCount d) (slice d (tailOff d+8) 32)
    (byteAt d (tailOff d+40)) (slice d (tailOff d+41) 32) (i64At d (tailOff d)) bump (slice d 0 32)

def wantFields (d : Bytes) (n : ℕ) : List (ℕ × Bytes) :=
  (List.range n).map fun j => (bWant+j*entryLen,slice d (wantOff d+j*entryLen) entryLen)

def giveFields (E : Env) (d : Bytes) (n : ℕ) : List (ℕ × Bytes) :=
  (List.range n).flatMap fun i => [(bGive+i*entryLen,(giveMintAt E i).bytes),
    (bGive+i*entryLen+32,le 8 (giveAmountAt d i))]

def basketRecord (E : Env) (maker : Pubkey) (d : Bytes) (bump : UInt8) (n : ℕ) : Bytes :=
  patches (zeros basketLen)
    (headerFields maker d bump ++ wantFields d (wantCount d) ++ giveFields E d n)

def IsEscrowLeg (E : Env) (maker swap tokenProg : Pubkey) (d : Bytes) (bump : UInt8) (i : ℕ)
    (as : List Act) : Prop :=
  ∃ vault source : Pubkey, ∃ vbump dec, SlotIs E (6+i*3) (giveMintAt E i) ∧
    giveAmountAt d i ≠ 0 ∧
    E.host.findProgramAddress (bvaultSeeds maker (slice d 0 32) (UInt8.ofNat i)) E.programId =
      some (vault,vbump) ∧
    as = [createAct E maker vault tokenAcctLen splTokenId
        (bumped (bvaultSeeds maker (slice d 0 32) (UInt8.ofNat i)) vbump),
      initAct tokenProg vault (giveMintAt E i) swap,
      transferAct tokenProg source (giveMintAt E i) vault maker (giveAmountAt d i) dec none,
      .write swap (basketRecord E maker d bump (i+1))]

structure OpenedBasket (E : Env) (d : Bytes) (m m' : Machine) (maker swap tokenProg : Pubkey)
    (bump : UInt8) (w g : ℕ → List Act) : Prop where
  length : d.length = tailOff d+73
  counts : 1 ≤ giveCount d ∧ giveCount d ≤ maxLeg ∧ wantCount d ≤ maxLeg
  mode : byteAt d (tailOff d+40) = authNormal ∨ byteAt d (tailOff d+40) = authBearer
  bearer : byteAt d (tailOff d+40) = authBearer →
    wantCount d = 0 ∧ slice d (tailOff d+41) 32 ≠ zeros 32
  live : E.clock < i64At d (tailOff d)
  slot : SlotIs E 1 swap
  tokenSlot : SlotIs E 3 tokenProg
  signed : E.signed maker
  address : E.host.findProgramAddress (basketSeeds maker (slice d 0 32)) E.programId =
    some (swap,bump)
  wants : ∀ j < wantCount d, ∃ b, w j = [.write swap b]
  legs : ∀ i < giveCount d, IsEscrowLeg E maker swap tokenProg d bump i (g i)
  did : Did E ([createAct E maker swap basketLen E.programId
      (bumped (basketSeeds maker (slice d 0 32)) bump),
    .write swap (patches (zeros basketLen) (headerFields maker d bump))] ++
    (List.range (wantCount d)).flatMap w ++ (List.range (giveCount d)).flatMap g) m m'
  stores : Stores E swap (basketRecord E maker d bump (giveCount d)) m'

/-- What opening a basket checked of its entries: no want amount is zero, and no
give mint is among the want mints recorded so far. -/
structure CheckedEntries (E : Env) (maker : Pubkey) (d : Bytes) (bump : UInt8) : Prop where
  positive : ∀ j < wantCount d, u64At d (wantOff d+j*entryLen+32) ≠ 0
  apart : ∀ i < giveCount d, ∀ j < wantCount d,
    slice (basketRecord E maker d bump i) (bWant+j*entryLen) 32 ≠ (giveMintAt E i).bytes

theorem effect_write_stores {k : Pubkey} {b : Bytes} {s s' : Ledger}
    (h : (Act.write k b).effect E s = some s') : Stores E k b (m.next (.write k b) s') := by
  simp only [Act.effect] at h
  split at h
  · rename_i hc
    cases h
    exact ⟨by simpa using hc.1,by simp⟩
  · cases h

theorem recordWant_did {swap : AccountInfo} {start : Bytes} (j : ℕ)
    (hs : Stores E swap.key (patches start (wantFields d j)) m) :
    wp (recordWant E swap d (wantOff d) j)
      (fun _ m' => Stores E swap.key (patches start (wantFields d (j+1))) m' ∧
        ∃ as, Did E as m m' ∧ (∃ b, as = [.write swap.key b]) ∧
          u64At d (wantOff d+j*entryLen+32) ≠ 0) (fun _ => True) m := by
  have hnext : patch (patches start (wantFields d j)) (bWant+j*entryLen)
      (slice d (wantOff d+j*entryLen) entryLen) = patches start (wantFields d (j+1)) := by
    rw [wantFields, wantFields, List.range_succ, List.map_append, patches_append]
    rfl
  simp only [recordWant, wp_bind, wp_failIf, wp_dataOf, implies_true, and_true, hs.2, wp_perform,
    hnext]
  exact fun hamt s h => ⟨effect_write_stores h,[.write swap.key _],⟨s,h,rfl⟩,⟨_,rfl⟩,hamt⟩

theorem escrowLeg_did (hw : Wellformed E) (hf : Confined E.host)
    {maker swap tokenProg : AccountInfo} (bump : UInt8) (i : ℕ)
    (hs : Stores E swap.key (basketRecord E maker.key d bump i) m) :
    wp (escrowLeg E maker swap tokenProg d (slice d 0 32) 34 (wantCount d) i)
      (fun _ m' => Stores E swap.key (basketRecord E maker.key d bump (i+1)) m' ∧
        ∃ as, Did E as m m' ∧ IsEscrowLeg E maker.key swap.key tokenProg.key d bump i as ∧
          ∀ j < wantCount d, slice (basketRecord E maker.key d bump i) (bWant+j*entryLen) 32 ≠
            (giveMintAt E i).bytes)
      (fun _ => True) m := by
  simp only [escrowLeg, createPda, tokenInit, tokenTransfer, wp_bind, wp_accountAt, wp_failIf,
    wp_dataOf, wp_findAddress, wp_perform, wp_mintDecimals, implies_true, and_true, not_not]
  intro mint hmint vault _ source _ hamt hapart vpda vbump hv he s₁ h₁ s₂ h₂ dec _ s₃ h₃ s₄ h₄
  subst he
  have hd : Did E [createAct E maker.key vault.key tokenAcctLen splTokenId
      (bumped (bvaultSeeds maker.key (slice d 0 32) (UInt8.ofNat i)) vbump),
    initAct tokenProg.key vault.key mint.key swap.key,
    transferAct tokenProg.key source.key mint.key vault.key maker.key (giveAmountAt d i) dec none]
    m _ := ⟨s₁,h₁,s₂,h₂,s₃,h₃,rfl⟩
  have hs₃ := hs.did hw hf hd (by simp [createAct, initAct, transferAct])
  have hkey : giveMintAt E i = mint.key := by
    rw [giveMintAt, hmint]
    rfl
  have hnext : patches (basketRecord E maker.key d bump i)
      [(bGive+i*entryLen,mint.key.bytes),(bGive+i*entryLen+32,le 8 (u64At d (34+i*8)))] =
      basketRecord E maker.key d bump (i+1) := by
    rw [basketRecord, basketRecord, ← patches_append, giveFields, giveFields, List.range_succ,
      List.flatMap_append, List.flatMap_singleton, ← hkey, ← List.append_assoc]
    rfl
  have hdata : (s₃ swap.key).data = basketRecord E maker.key d bump i := hs₃.2
  simp only [next_ledger, hdata, hnext] at h₄ ⊢
  refine ⟨effect_write_stores h₄,_,(did_append _ [.write swap.key _] m _).mpr ⟨_,hd,s₄,h₄,rfl⟩,
    ⟨vault.key,source.key,vbump,dec,hkey ▸ .of_getElem hmint,hamt,hv,?_⟩,?_⟩
  · rw [hkey]
    rfl
  · intro j hj he
    rw [hkey] at he
    exact hapart ⟨j,List.mem_range.mpr hj,by rw [hs.2]; exact he⟩

/-- The want entries, then the legs, after the header. -/
theorem entries_did (hw : Wellformed E) (hf : Confined E.host) {maker swap tokenProg : AccountInfo}
    (bump : UInt8) {pre : List Act} {m₀ : Machine} (hp : Did E pre m₀ m)
    (hs : Stores E swap.key (patches (zeros basketLen) (headerFields maker.key d bump)) m) :
    wp (do
      forEach (List.range (wantCount d)) (recordWant E swap d (wantOff d))
      forEach (List.range (giveCount d))
        (escrowLeg E maker swap tokenProg d (slice d 0 32) 34 (wantCount d)))
      (fun _ m' => Stores E swap.key (basketRecord E maker.key d bump (giveCount d)) m' ∧
        ∃ w g : ℕ → List Act, (∀ j < wantCount d, ∃ b, w j = [.write swap.key b]) ∧
          (∀ i < giveCount d, IsEscrowLeg E maker.key swap.key tokenProg.key d bump i (g i)) ∧
          Did E (pre ++ (List.range (wantCount d)).flatMap w ++
            (List.range (giveCount d)).flatMap g)
            m₀ m' ∧ CheckedEntries E maker.key d bump) (fun _ => True) m := by
  have hwant : Stores E swap.key
    (patches (patches (zeros basketLen) (headerFields maker.key d bump))
      (wantFields d 0)) m := by
    rwa [wantFields, List.range_zero, List.map_nil, patches_nil]
  rw [wp_bind]
  refine wp_mono (did_forEach (E := E) _
    (fun j => Stores E swap.key (patches (patches (zeros basketLen)
    (headerFields maker.key d bump)) (wantFields d j)))
    (fun j as => (∃ b, as = [.write swap.key b]) ∧
      u64At d (wantOff d+j*entryLen+32) ≠ 0)
    (wantCount d) (fun j _ m₁ h => recordWant_did j h) hwant) ?_ (fun _ _ => trivial)
  rintro _ m₁ ⟨hwants,w,hwl,hd₁⟩
  have hstart : Stores E swap.key (basketRecord E maker.key d bump 0) m₁ := by
    rwa [basketRecord, giveFields, List.range_zero, List.flatMap_nil, List.append_nil,
      patches_append]
  refine wp_mono (did_forEach (E := E) _
    (fun i => Stores E swap.key (basketRecord E maker.key d bump i))
    (fun i as => IsEscrowLeg E maker.key swap.key tokenProg.key d bump i as ∧
      ∀ j < wantCount d, slice (basketRecord E maker.key d bump i) (bWant+j*entryLen) 32 ≠
        (giveMintAt E i).bytes) (giveCount d)
    (fun i _ m₁ h => escrowLeg_did hw hf bump i h) hstart) ?_ (fun _ _ => trivial)
  rintro _ m' ⟨hstores,g,hgl,hd₂⟩
  exact ⟨hstores,w,g,fun j hj => (hwl j hj).1,fun i hi => (hgl i hi).1,(did_append _ _ m₀ m').mpr
    ⟨m₁,(did_append _ _ m₀ m₁).mpr ⟨m,hp,hd₁⟩,hd₂⟩,fun j hj => (hwl j hj).2,fun i hi =>
    (hgl i hi).2⟩

theorem openBasket_opens (hs : SystemRules E.host) (hw : Wellformed E) (hf : Confined E.host) :
    wp (openBasket E d) (fun _ m' => ∃ maker swap tokenProg bump w g,
      OpenedBasket E d m m' maker swap tokenProg bump w g ∧ SlotIs E 0 maker ∧
        CheckedEntries E maker d bump) (fun _ => True) m := by
  simp only [openBasket, createPda, wp_bind, wp_failIf, wp_accountAt, wp_findAddress,
    wp_requireAlias, wp_dataOf, wp_perform, implies_true, and_true, not_not, not_or, not_and,
    not_lt, not_le]
  intro _ hcount hl hmode hbearer hexp _ maker hmk swap hsw tokenProg htp config _ aliasAcct
    _ hsign _ swapPda bump hswap he s₁ h₁ s₂ h₂
  subst he
  have hcreate : Did E [createAct E maker.key swap.key basketLen E.programId
    (bumped (basketSeeds maker.key (slice d 0 32)) bump)] m (m.next _ s₁) := ⟨s₁,h₁,rfl⟩
  have hz : (s₁ swap.key).data = zeros basketLen := (created_stores hs hcreate).1.2
  simp only [next_ledger, hz] at h₂ ⊢
  have hhead : Did E [_,.write swap.key (patches (zeros basketLen) (headerFields maker.key d bump))]
    m _ :=
    ⟨s₁,h₁,s₂,h₂,rfl⟩
  rw [← wp_bind]
  refine wp_mono (entries_did hw hf bump hhead (effect_write_stores h₂)) ?_ (fun _ _ => trivial)
  rintro _ m' ⟨hstores,w,g,hwl,hgl,hd,hchecked⟩
  exact ⟨maker.key,swap.key,tokenProg.key,bump,w,g,
    { length := hl
      counts := ⟨by unfold giveCount; omega,by unfold giveCount; omega,by unfold wantCount; omega⟩
      mode := or_iff_not_imp_left.mpr hmode
      bearer := hbearer
      live := hexp
      slot := .of_getElem hsw
      tokenSlot := .of_getElem htp
      signed := ⟨maker,List.mem_of_getElem? hmk,rfl,by simpa using hsign⟩
      address := hswap
      wants := hwl
      legs := hgl
      did := hd
      stores := hstores },.of_getElem hmk,hchecked⟩

theorem openBasket_did (hs : SystemRules E.host) (hw : Wellformed E) (hf : Confined E.host) :
    wp (openBasket E d) (fun _ m' => ∃ maker swap tokenProg bump w g,
      OpenedBasket E d m m' maker swap tokenProg bump w g) (fun _ => True) m := by
  refine wp_mono (openBasket_opens hs hw hf) ?_ (fun _ _ => trivial)
  rintro _ m' ⟨maker,swap,tokenProg,bump,w,g,h,-,-⟩
  exact ⟨maker,swap,tokenProg,bump,w,g,h⟩

end Xete.Swap
