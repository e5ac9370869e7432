import XetePrograms.Swap.BasketForm
import XetePrograms.Swap.BasketRefund
import XetePrograms.Swap.Take

/-!
# Fills of baskets that go through

The taker pays every want entry and then gets every give entry. The payments
come out of few accounts and may share them, so what counts is the sum of what
leaves each account, and the call is accepted exactly while each of these sums
is there and no vault has more than its entry.
-/

set_option autoImplicit false

namespace Xete.Swap
open Xete.Octets Xete.Weakest Xete.Chain Xete.Token Xete.Runtime Xete.Rules Xete.Flows

variable {E : Env} {H : Host} {m m₁ m' : Machine} {s s' s₀ : Ledger} {p auth r payee : Pubkey}
  {signer : Option (List Bytes)} {seeds : List Bytes} {fs : List (Flow Pubkey)}

/-! ## Transfers one after the other -/

structure Transfer where
  mint : Pubkey
  source : Pubkey
  dest : Pubkey
  amount : ℕ

variable {t : Transfer} {ts : List Transfer}

def Transfer.flow (t : Transfer) : Flow Pubkey := ⟨t.source,t.dest,t.amount⟩

def transferActs (s : Ledger) (p auth : Pubkey) (signer : Option (List Bytes))
    (ts : List Transfer) :
    List Act :=
  ts.map fun t => transferAct p t.source t.mint t.dest auth t.amount
    (mintDecimalsAt s t.mint) signer

structure Sendable (E : Env) (s : Ledger) (p auth : Pubkey) (signer : Option (List Bytes))
    (ts : List Transfer) : Prop where
  moves : ∀ t ∈ ts, CanMove E s p t.source t.mint auth signer
  taken : ∀ t ∈ ts, ∃ owner, Receives s p t.dest t.mint owner 0
  writable : ∀ t ∈ ts, E.writable t.dest
  apart : ∀ t ∈ ts, ∀ t' ∈ ts, t.source ≠ t'.dest
  room : ∀ t ∈ ts, balance s t.dest+inTo (ts.map Transfer.flow) t.dest ≤ u64Max

theorem Receives.within {dest mint owner : Pubkey} {n : ℕ} (h : Receives s p dest mint owner 0)
    (hn : balance s dest+n ≤ u64Max) : Receives s p dest mint owner n := by
  obtain ⟨t,ht,hp,hm,ha,hf,-⟩ := h
  rw [balance_of ht] at hn
  exact ⟨t,ht,hp,hm,ha,hf,hn⟩

theorem Sendable.tail (h : Sendable E s p auth signer (t :: ts)) (hm : Moved [t.flow] s s') :
    Sendable E s' p auth signer ts := by
  have hin : ∀ a, inTo ((t :: ts).map Transfer.flow) a =
    inTo [t.flow] a+inTo (ts.map Transfer.flow) a :=
    fun a => inTo_append [t.flow] _ a
  constructor
  · intro t' ht'
    apply (h.moves t' (by simp [ht'])).moved hm
    exact inTo_zero (by simpa [Transfer.flow] using (h.apart t' (by simp [ht']) t (by simp)).symm)
  · intro t' ht'
    obtain ⟨owner,hr⟩ := h.taken t' (by simp [ht'])
    have hroom := h.room t' (by simp [ht'])
    rw [hin] at hroom
    exact ⟨owner,(hr.within (n := inTo [t.flow] t'.dest) (by omega)).moved hm le_rfl⟩
  · exact fun t' ht' => h.writable t' (by simp [ht'])
  · exact fun t₁ h₁ t₂ h₂ => h.apart t₁ (by simp [h₁]) t₂ (by simp [h₂])
  · intro t' ht'
    have hroom := h.room t' (by simp [ht'])
    have hbook := hm.booked t'.dest
    rw [hin] at hroom
    omega

theorem transfers_moved (ht : TokenRules E.host) (hp : IsTokenProgram p)
    (hd : Did E (transferActs s p auth signer ts) m m') :
    Moved (ts.map Transfer.flow) m.ledger m'.ledger := by
  induction ts generalizing m with
  | nil =>
    cases hd
    exact Moved.refl _
  | cons t ts ih =>
    obtain ⟨s₁,h₁,hrest⟩ := hd
    have hfirst : Moved [t.flow] m.ledger s₁ := transferAct_moved ht hp h₁
    exact hfirst.append (ih hrest)

theorem transfers_run (hw : Wellformed E) (ht : TokenRules E.host) (ha : TokenAccepts E.host)
    (h : Sendable E m.ledger p auth signer ts)
    (hdec : ∀ t ∈ ts, mintDecimalsAt m.ledger t.mint = mintDecimalsAt s t.mint)
    (hb : ∀ a, outOf (ts.map Transfer.flow) a ≤ balance m.ledger a) :
    ∃ m', Did E (transferActs s p auth signer ts) m m' := by
  induction ts generalizing m with
  | nil => exact ⟨m,rfl⟩
  | cons t ts ih =>
    have hout : ∀ a, outOf ((t :: ts).map Transfer.flow) a =
        outOf [t.flow] a+outOf (ts.map Transfer.flow) a := fun a => outOf_append [t.flow] _ a
    have hmove := h.moves t (by simp)
    obtain ⟨owner,htake⟩ := h.taken t (by simp)
    have hroom := h.room t (by simp)
    have hsum := hb t.source
    have hne := h.apart t (by simp) t (by simp)
    simp only [List.map_cons, outOf, inTo, Transfer.flow, if_true] at hroom hsum
    obtain ⟨s₁,h₁⟩ := hmove.transfers hw ha (htake.within (n := t.amount) (by omega))
      (h.writable t (by simp)) hne (by omega)
    rw [hdec t (by simp)] at h₁
    have hm : Moved [t.flow] m.ledger s₁ := transferAct_moved ht hmove.program h₁
    have hdec' : ∀ t' ∈ ts, mintDecimalsAt s₁ t'.mint = mintDecimalsAt s t'.mint := by
      intro t' ht'
      rw [(hm.isMint (h.moves t' (by simp [ht'])).isMint).2]
      exact hdec t' (by simp [ht'])
    have hb' : ∀ a, outOf (ts.map Transfer.flow) a ≤ balance s₁ a := by
      intro a
      have hbook := hm.booked a
      have hsum := hb a
      rw [hout] at hsum
      omega
    obtain ⟨m',hm'⟩ := ih (m := m.next _ s₁) (h.tail hm) hdec' hb'
    exact ⟨m',s₁,h₁,hm'⟩

/-- The transfers go through exactly while each account has what leaves it in all. -/
theorem transfers_iff (hw : Wellformed E) (ht : TokenRules E.host) (ha : TokenAccepts E.host)
    (hp : IsTokenProgram p) (h : Sendable E m.ledger p auth signer ts) :
    (∃ m', Did E (transferActs m.ledger p auth signer ts) m m') ↔
      ∀ a, outOf (ts.map Transfer.flow) a ≤ balance m.ledger a := by
  refine ⟨?_,transfers_run hw ht ha h fun _ _ => rfl⟩
  rintro ⟨m',hd⟩ a
  have hm := transfers_moved ht hp hd
  by_cases hsrc : ∃ t ∈ ts, t.source = a
  · obtain ⟨t,htm,rfl⟩ := hsrc
    apply hm.booked.covered
    intro f hf
    obtain ⟨t',ht',rfl⟩ := List.mem_map.mp hf
    exact (h.apart t htm t' ht').symm
  · rw [outOf_zero]
    · exact Nat.zero_le _
    · intro f hf
      obtain ⟨t',ht',rfl⟩ := List.mem_map.mp hf
      exact fun he => hsrc ⟨t',ht',he⟩

/-! ## The want entries -/

structure Price where
  mint : Pubkey
  source : Pubkey
  dest : Pubkey
  feeTo : Pubkey
  amount : ℕ
  fee : ℕ

def Price.transfers (w : Price) : List Transfer :=
  (if 0 < w.fee then [⟨w.mint,w.source,w.feeTo,w.fee⟩] else []) ++
    [⟨w.mint,w.source,w.dest,w.amount-w.fee⟩]

def payments (ws : List Price) : List Transfer := ws.flatMap Price.transfers

theorem payment_acts (w : Price) : transferActs s p auth signer w.transfers =
    priceActs p w.source w.mint w.feeTo w.dest auth w.amount w.fee (mintDecimalsAt s w.mint)
      signer := by
  unfold Price.transfers priceActs feeActs transferActs
  by_cases hf : 0 < w.fee
  · rw [if_pos hf, if_pos hf]
    rfl
  · rw [if_neg hf, if_neg hf]
    rfl

theorem payments_acts (w : Price) (ws : List Price) :
    transferActs s p auth signer (payments (w :: ws)) =
    transferActs s p auth signer w.transfers ++ transferActs s p auth signer (payments ws) :=
  List.map_append

theorem mem_payments {ws : List Price} : t ∈ payments ws ↔ ∃ w ∈ ws,
    (0 < w.fee ∧ t = ⟨w.mint,w.source,w.feeTo,w.fee⟩) ∨
      t = ⟨w.mint,w.source,w.dest,w.amount-w.fee⟩ := by
  simp only [payments, List.mem_flatMap, Price.transfers, List.mem_append, List.mem_singleton]
  refine exists_congr fun w => and_congr_right fun _ => or_congr_left ?_
  by_cases hf : 0 < w.fee <;> simp [hf]

theorem TokenOf.moved {a mint owner : Pubkey} (h : TokenOf s a mint owner) (hm : Moved fs s s') :
    TokenOf s' a mint owner := by
  obtain ⟨t,ht,rfl,rfl⟩ := h
  obtain ⟨t',ht',hr⟩ := hm.tokens a t ht
  exact ⟨t',ht',hr.mint,hr.authority⟩

section
variable {taker swap maker tokenProg payer want feeTo authority : AccountInfo} {cfg : FeePolicy}
  {stateMaker : Pubkey} {shardSeed dec : UInt8} {b nonce : Bytes} {base j fee : ℕ} {js : List ℕ}
  {source dest feeTos : ℕ → Pubkey} {Q : Unit → Machine → Prop}

def FeeStands (E : Env) (s : Ledger) (cfg : FeePolicy) (a mint : Pubkey) (shardSeed : UInt8) :
    Prop :=
  if cfg.feeShards = 0 then TokenOf s a mint cfg.feeWallet
  else ∃ b, E.host.findProgramAddress (feeVaultSeeds mint (shardSeed % cfg.feeShards)) E.programId =
    some (a,b)

theorem FeeStands.isFeeDest {a mint : Pubkey} (h : FeeStands E s cfg a mint shardSeed) :
    IsFeeDest E s a mint cfg.feeWallet cfg.feeShards shardSeed := by
  unfold FeeStands at h
  unfold IsFeeDest
  by_cases hz : cfg.feeShards = 0
  · rw [if_pos hz] at h ⊢
    exact h.belongs
  · rw [if_neg hz] at h ⊢
    exact h

theorem FeeStands.moved {a mint : Pubkey} (h : FeeStands E s cfg a mint shardSeed)
    (hm : Moved fs s s') :
    FeeStands E s' cfg a mint shardSeed := by
  unfold FeeStands at h ⊢
  by_cases hz : cfg.feeShards = 0
  · rw [if_pos hz] at h ⊢
    exact h.moved hm
  · rw [if_neg hz] at h ⊢
    exact h

theorem payFee_total (hdest : 0 < fee →
      IsFeeDest E m.ledger feeTo.key want.key cfg.feeWallet cfg.feeShards shardSeed) :
    wp (payFee E cfg tokenProg payer want feeTo authority fee dec shardSeed signer) Q
      (fun _ => False) m ↔
      ∃ m', Did E (feeActs tokenProg.key payer.key want.key feeTo.key authority.key fee dec signer)
        m m' ∧ Q () m' := by
  unfold payFee feeActs
  by_cases hf : 0 < fee
  · simp [-wp_perform, total_perform, hf, hdest hf, tokenTransfer, transferAct]
  · simp [hf]

def priceAt (b : Bytes) (cfg : FeePolicy) (source dest feeTo : ℕ → Pubkey) (j : ℕ) : Price :=
  ⟨entryMint b bWant j,source j,dest j,feeTo j,entryAmount b bWant j,
    exactFee cfg (entryAmount b bWant j)⟩

structure PriceChecked (E : Env) (s : Ledger) (cfg : FeePolicy) (stateMaker : Pubkey)
    (shardSeed : UInt8) (b : Bytes) (base : ℕ) (source dest feeTo : ℕ → Pubkey) (j : ℕ) : Prop where
  size : bWant+j*entryLen+entryLen ≤ b.length
  mintSlot : SlotIs E (base+j*4) (entryMint b bWant j)
  sourceSlot : SlotIs E (base+j*4+1) (source j)
  destSlot : SlotIs E (base+j*4+2) (dest j)
  feeSlot : SlotIs E (base+j*4+3) (feeTo j)
  isMint : ∃ p, IsMint p s (entryMint b bWant j)
  owned : TokenOf s (dest j) (entryMint b bWant j) stateMaker
  feeDest : 0 < exactFee cfg (entryAmount b bWant j) →
    FeeStands E s cfg (feeTo j) (entryMint b bWant j) shardSeed

theorem PriceChecked.moved
    (h : PriceChecked E s cfg stateMaker shardSeed b base source dest feeTos j)
    (hm : Moved fs s s') : PriceChecked E s' cfg stateMaker shardSeed b base source dest feeTos j :=
  { h with
    isMint := by
      obtain ⟨p,hp⟩ := h.isMint
      exact ⟨p,(hm.isMint hp).1⟩
    owned := h.owned.moved hm
    feeDest := fun hf => (h.feeDest hf).moved hm }

theorem payWantEntry_total (hb : (m.ledger swap.key).data = b) (hbps : cfg.feeBps ≤ bpsDenom)
    (h : PriceChecked E m.ledger cfg stateMaker shardSeed b base source dest feeTos j) :
    wp (payWantEntry E taker swap tokenProg cfg stateMaker shardSeed base j) Q (fun _ => False) m ↔
      ∃ m', Did E (transferActs m.ledger tokenProg.key taker.key none
        (priceAt b cfg source dest feeTos j).transfers) m m' ∧ Q () m' := by
  obtain ⟨ma,hma,hmk⟩ := h.mintSlot.getElem
  obtain ⟨sa,hsa,hsk⟩ := h.sourceSlot.getElem
  obtain ⟨da,hda,hdk⟩ := h.destSlot.getElem
  obtain ⟨fa,hfa,hfk⟩ := h.feeSlot.getElem
  obtain ⟨p,hp⟩ := h.isMint
  have hdec := isMint_decimals hp
  have hown := h.owned.belongs
  have hamt : entryAmount b bWant j ≤ u64Max := u64At_le _ _
  have hfee : bpsOf (entryAmount b bWant j) cfg.feeBps = exactFee cfg (entryAmount b bWant j) :=
    bpsOf_exact hbps hamt
  have hcov : exactFee cfg (entryAmount b bWant j) ≤ entryAmount b bWant j := exactFee_le hbps _
  have hdest := fun hf => (h.feeDest hf).isFeeDest
  have hnot : ¬b.length < bWant+j*entryLen+entryLen := by have := h.size; omega
  have hmint : keyAt b (bWant+j*entryLen) = ma.key := hmk.symm
  rw [← hmk] at hdec
  obtain ⟨hl,hget⟩ := List.getElem?_eq_some_iff.mp hdec
  rw [payment_acts, priceAt]
  rw [← hmk, ← hdk] at hown
  rw [← hmk, ← hfk] at hdest
  have hrest : ∀ m₁, wp (do
      let rest ← checkedSub (entryAmount b bWant j) (exactFee cfg (entryAmount b bWant j)) .panicked
      tokenTransfer E tokenProg sa ma da taker rest (mintDecimalsAt m.ledger ma.key) none) Q
        (fun _ => False) m₁ ↔
      ∃ m', Did E [transferAct tokenProg.key sa.key ma.key da.key taker.key
        (entryAmount b bWant j-exactFee cfg (entryAmount b bWant j))
        (mintDecimalsAt m.ledger ma.key) none]
        m₁ m' ∧ Q () m' := by
    intro m₁
    simp [-wp_perform, total_perform, hcov, tokenTransfer, transferAct]
  rw [← hmk, ← hsk, ← hdk, ← hfk]
  simp [payWantEntry, hma, hsa, hda, hfa, entryAt, hb, hnot, hmint, hl, hget, hown]
  change wp (payFee E cfg tokenProg sa ma fa taker (bpsOf (entryAmount b bWant j) cfg.feeBps) _ _ _)
    (fun _ => wp (do
      let rest ← checkedSub (entryAmount b bWant j) (bpsOf (entryAmount b bWant j) cfg.feeBps)
        .panicked
      tokenTransfer E tokenProg sa ma da taker rest (mintDecimalsAt m.ledger ma.key) none) Q
        (fun _ => False)) _ m ↔ _
  rw [hfee, payFee_total hdest]
  simp only [priceActs, did_append, hrest]
  constructor
  · rintro ⟨m₁,h₁,m',h',hQ⟩
    exact ⟨m',⟨m₁,h₁,h'⟩,hQ⟩
  · rintro ⟨m',⟨m₁,h₁,h'⟩,hQ⟩
    exact ⟨m₁,h₁,m',h',hQ⟩

/-- The loop makes the payments, and nothing else can fail. -/
theorem payWantEntries_total (hw : Wellformed E) (ht : TokenRules E.host)
    (hp : IsTokenProgram tokenProg.key) (hbps : cfg.feeBps ≤ bpsDenom)
    (ho : (m.ledger swap.key).owner = E.programId) (hb : (m.ledger swap.key).data = b)
    (hdec : ∀ j ∈ js, mintDecimalsAt m.ledger (entryMint b bWant j) =
      mintDecimalsAt s (entryMint b bWant j))
    (h : ∀ j ∈ js, PriceChecked E m.ledger cfg stateMaker shardSeed b base source dest feeTos j) :
    wp (forEach js (payWantEntry E taker swap tokenProg cfg stateMaker shardSeed base)) Q
      (fun _ => False) m ↔ ∃ m', Did E (transferActs s tokenProg.key taker.key none
        (payments (js.map (priceAt b cfg source dest feeTos)))) m m' ∧ Q () m' := by
  induction js generalizing m with
  | nil => simp [payments, transferActs]
  | cons j js ih =>
    have hj := h j (by simp)
    have hacts : transferActs m.ledger tokenProg.key taker.key none
      (priceAt b cfg source dest feeTos j).transfers =
        transferActs s tokenProg.key taker.key none
          (priceAt b cfg source dest feeTos j).transfers := by
      rw [payment_acts, payment_acts]
      simp only [priceAt, hdec j (by simp)]
    rw [wp_forEach_cons, payWantEntry_total hb hbps hj, List.map_cons, payments_acts, hacts]
    have hnext : ∀ m₁, Did E (transferActs s tokenProg.key taker.key none
        (priceAt b cfg source dest feeTos j).transfers) m m₁ →
        (wp (forEach js (payWantEntry E taker swap tokenProg cfg stateMaker shardSeed base)) Q
          (fun _ => False) m₁ ↔
        ∃ m', Did E (transferActs s tokenProg.key taker.key none
          (payments (js.map (priceAt b cfg source dest feeTos)))) m₁ m' ∧ Q () m') := by
      intro m₁ hd
      have hm := transfers_moved ht hp hd
      have hrec := hm.plain swap.key (record_plain hw ho)
      apply ih
      · rw [hrec, ho]
      · rw [hrec, hb]
      · intro i hi
        obtain ⟨q,hq⟩ := (h i (by simp [hi])).isMint
        rw [(hm.isMint hq).2]
        exact hdec i (by simp [hi])
      · exact fun i hi => (h i (by simp [hi])).moved hm
    simp only [did_append]
    constructor
    · rintro ⟨m₁,hd,hrest⟩
      obtain ⟨m',hrun,hQ⟩ := (hnext m₁ hd).mp hrest
      exact ⟨m',⟨m₁,hd,hrun⟩,hQ⟩
    · rintro ⟨m',⟨m₁,hd,hrun⟩,hQ⟩
      exact ⟨m₁,hd,(hnext m₁ hd).mpr ⟨m',hrun,hQ⟩⟩

end

/-! ## The give entries -/

section
variable {l : Leg} {legs : List Leg}

def Leg.flow (l : Leg) : Flow Pubkey := ⟨l.vault,l.dest,l.amount⟩

structure Delivery (s s' : Ledger) (payee : Pubkey) (legs : List Leg) : Prop where
  booked : Booked (legs.map Leg.flow) (balance s) (balance s')
  others : ∀ a, a ∉ ends (legs.map Leg.flow) → a ≠ payee → s' a = s a

theorem ReleaseRun.delivery (ht : TokenRules E.host)
    (h : Releasable E m.ledger p r payee seeds legs) (hr : ReleaseRun E p r payee seeds legs m m') :
    Delivery m.ledger m'.ledger payee legs := by
  induction legs generalizing m with
  | nil =>
    cases hr
    exact ⟨booked_nil rfl,fun _ _ _ => rfl⟩
  | cons l legs ih =>
    obtain ⟨m₁,hd,hrest⟩ := hr
    have hl := h.each l (by simp)
    have hnext := ih (h.tail (freed ht hl hd)) hrest
    obtain ⟨t,hvt,-,-,-,-,-,hnat,-⟩ := hl.vault
    obtain ⟨s₁,h₁,s₂,h₂,rfl⟩ := hd
    have hgoods : Moved [l.flow] m.ledger s₁ := transferAct_moved ht hl.program h₁
    obtain ⟨t₁,ht₁,hres⟩ := hgoods.tokens l.vault t hvt
    obtain ⟨hvault,-⟩ := vault_drained ht hl.program ht₁ (hres.native.trans hnat) h₂
    constructor
    · have hfirst : Booked [l.flow] (balance m.ledger) (balance s₂) := by
        rw [hvault.balances]
        exact hgoods.booked
      exact hfirst.append hnext.booked
    · intro a ha hap
      simp only [ends, List.map_cons, List.flatMap_cons, List.mem_append, not_or] at ha
      have hav : a ≠ l.vault := by
        rintro rfl
        exact ha.1 (by simp [Leg.flow])
      rw [hnext.others a ha.2 hap]
      exact (hvault.others a hav hap).trans (hgoods.others a (by simpa [ends] using ha.1))

theorem totalRent_moved (hm : Moved fs s s') (hv : ∀ l ∈ legs, l.vault ∉ ends fs) :
    totalRent s' legs = totalRent s legs := by
  refine congrArg List.sum (List.map_congr_left fun l hl => ?_)
  rw [hm.others _ (hv l hl)]

/-- A payment on other mints leaves the legs as they were. -/
theorem Releasable.moved (h : Releasable E s p r payee seeds legs) (hm : Moved fs s s')
    (hv : ∀ l ∈ legs, l.vault ∉ ends fs) (hd : ∀ l ∈ legs, inTo fs l.dest = 0)
    (hpayee : tokenAt s payee = none) : Releasable E s' p r payee seeds legs := by
  constructor
  · exact fun l hl => (h.each l hl).moved hm (hv l hl) hpayee (hd l hl)
  · exact h.vaults
  · exact h.apart
  · intro l hl t' ht'
    obtain ⟨t,ht,-⟩ := (h.each l hl).target
    have hfits := h.fits l hl t ht
    have hbook := hm.booked l.dest
    rw [balance_of ht', balance_of ht, hd l hl] at hbook
    omega
  · rw [hm.plain payee hpayee, totalRent_moved hm hv]
    exact h.room

theorem LastClose.moved (hw : Wellformed E) (h : LastClose E s r payee legs) (hm : Moved fs s s')
    (hv : ∀ l ∈ legs, l.vault ∉ ends fs) (hpayee : tokenAt s payee = none) :
    LastClose E s' r payee legs where
  owner := by
    rw [hm.plain r (record_plain hw h.owner)]
    exact h.owner
  writable := h.writable
  apart := h.apart
  room := by
    rw [hm.plain payee hpayee, totalRent_moved hm hv, hm.plain r (record_plain hw h.owner)]
    exact h.room

structure Bartered (s s' : Ledger) (fs : List (Flow Pubkey)) (r payee : Pubkey) (legs : List Leg) :
    Prop where
  booked : Booked (fs ++ legs.map Leg.flow) (balance s) (balance s')
  gone : ∀ l ∈ legs, s' l.vault = ⟨0,systemId,[]⟩
  wiped : (s' r).lamports = 0 ∧ (s' r).data = zeros (s r).data.length
  paid : (s' payee).lamports = (s payee).lamports+totalRent s legs+(s r).lamports
  others : ∀ a, a ∉ ends (fs ++ legs.map Leg.flow) → a ≠ r → a ≠ payee → s' a = s a

end

/-! ## One fill -/

section
variable {taker swap maker tokenProg : AccountInfo} {cfg : FeePolicy} {makerKey : Pubkey}
  {nonce b : Bytes} {vault goods source dest feeTo : ℕ → Pubkey} {is js : List ℕ}

def wantFlows (b : Bytes) (cfg : FeePolicy) (source dest feeTo : ℕ → Pubkey) (js : List ℕ) :
    List (Flow Pubkey) :=
  (payments (js.map (priceAt b cfg source dest feeTo))).map Transfer.flow

def basketFill (E : Env) (taker swap maker tokenProg : AccountInfo) (cfg : FeePolicy)
    (makerKey : Pubkey) (nonce : Bytes) (seeds : List Bytes) (wantBase : ℕ) (is js : List ℕ) :
    Exec Unit := do
  forEach js (payWantEntry E taker swap tokenProg cfg makerKey (byteAt nonce 0) wantBase)
  basketEnd E swap maker tokenProg makerKey nonce seeds 5 none is

structure BasketReady (E : Env) (s : Ledger) (taker swap maker p : Pubkey) (cfg : FeePolicy)
    (nonce b : Bytes) (seeds : List Bytes) (wantBase : ℕ)
    (vault goods source dest feeTo : ℕ → Pubkey) (is js : List ℕ) : Prop where
  bps : cfg.feeBps ≤ bpsDenom
  checked : ∀ j ∈ js, PriceChecked E s cfg maker (byteAt nonce 0) b wantBase source dest feeTo j
  payments : Sendable E s p taker none (payments (js.map (priceAt b cfg source dest feeTo)))
  ending : Endable E s swap maker p maker nonce b 5 none seeds vault goods is
  apart : ∀ i ∈ is, vault i ∉ ends (wantFlows b cfg source dest feeTo js) ∧
    inTo (wantFlows b cfg source dest feeTo js) (goods i) = 0
  wallet : tokenAt s maker = none

theorem BasketReady.vaults {wantBase : ℕ} {swap maker : Pubkey}
    (h : BasketReady E s auth swap maker p cfg nonce b seeds wantBase vault goods source dest feeTo
      is js) :
    ∀ l ∈ is.map (legAt b vault goods), l.vault ∉ ends (wantFlows b cfg source dest feeTo js) := by
  intro l hl
  obtain ⟨i,hi,rfl⟩ := List.mem_map.mp hl
  exact (h.apart i hi).1

/-- The payments leave the end of the basket as ready as it was. -/
theorem BasketReady.paid {wantBase : ℕ} {swap maker : Pubkey} (hw : Wellformed E)
    (h : BasketReady E s auth swap maker p cfg nonce b seeds wantBase vault goods source dest
      feeTo is js)
    (hm : Moved (wantFlows b cfg source dest feeTo js) s s') :
    Endable E s' swap maker p maker nonce b 5 none seeds vault goods is := by
  have hd : ∀ l ∈ is.map (legAt b vault goods), inTo (wantFlows b cfg source dest feeTo js) l.dest =
    0 := by
    intro l hl
    obtain ⟨i,hi,rfl⟩ := List.mem_map.mp hl
    exact (h.apart i hi).2
  exact
    { data := by
        rw [hm.plain swap (record_plain hw h.ending.last.owner)]
        exact h.ending.data
      checked := by
        intro i hi
        have hc := h.ending.checked i hi
        exact ⟨hc.size,hc.slots,hc.address,fun _ ho => by cases ho⟩
      legs := h.ending.legs.moved hm h.vaults hd h.wallet
      last := h.ending.last.moved hw hm h.vaults h.wallet }

theorem basketFill_total {wantBase : ℕ} (hw : Wellformed E) (ht : TokenRules E.host)
    (hp : IsTokenProgram tokenProg.key)
    (h : BasketReady E m.ledger taker.key swap.key maker.key tokenProg.key cfg nonce b seeds
      wantBase vault goods source dest feeTo is js)
    {Q : Unit → Machine → Prop} :
    wp (basketFill E taker swap maker tokenProg cfg maker.key nonce seeds wantBase is js) Q
      (fun _ => False) m ↔ ∃ m₁, Did E (transferActs m.ledger tokenProg.key taker.key none
        (payments (js.map (priceAt b cfg source dest feeTo)))) m m₁ ∧
        wp (basketEnd E swap maker tokenProg maker.key nonce seeds 5 none is) Q (fun _ => False)
          m₁ := by
  rw [basketFill, wp_bind]
  exact payWantEntries_total hw ht hp h.bps h.ending.last.owner h.ending.data (fun _ _ => rfl)
    h.checked

/-- A fill is accepted exactly while every vault has what it owes and every
account of the taker has what leaves it. -/
theorem basketFill_settles {wantBase : ℕ} (hw : Wellformed E) (ht : TokenRules E.host)
    (ha : TokenAccepts E.host) (hp : IsTokenProgram tokenProg.key)
    (h : BasketReady E m.ledger taker.key swap.key maker.key tokenProg.key cfg nonce b seeds
      wantBase vault goods source dest feeTo is js) :
    ((∃ m', basketFill E taker swap maker tokenProg cfg maker.key nonce seeds wantBase is js m =
      .ok () m') ↔ (∀ i ∈ is, Exact m.ledger (vault i) (entryAmount b bGive i)) ∧
      ∀ a, outOf (wantFlows b cfg source dest feeTo js) a ≤ balance m.ledger a) ∧
    ∀ m', basketFill E taker swap maker tokenProg cfg maker.key nonce seeds wantBase is js m =
      .ok () m' →
      Bartered m.ledger m'.ledger (wantFlows b cfg source dest feeTo js) swap.key maker.key
        (is.map (legAt b vault goods)) := by
  have hpaid : ∀ {m₁ : Machine}, Did E (transferActs m.ledger tokenProg.key taker.key none
      (payments (js.map (priceAt b cfg source dest feeTo)))) m m₁ →
      Moved (wantFlows b cfg source dest feeTo js) m.ledger m₁.ledger := transfers_moved ht hp
  have hsame : ∀ {m₁ : Machine}, Moved (wantFlows b cfg source dest feeTo js) m.ledger m₁.ledger →
      ((∀ i ∈ is, Exact m₁.ledger (vault i) (entryAmount b bGive i)) ↔
        ∀ i ∈ is, Exact m.ledger (vault i) (entryAmount b bGive i)) := by
    intro m₁ hm
    exact forall₂_congr fun i hi => Exact.moved hm (h.apart i hi).1
  have hiff := transfers_iff (m := m) hw ht ha hp h.payments
  have hsplit : ∀ m', basketFill E taker swap maker tokenProg cfg maker.key nonce seeds wantBase
    is js m =
      .ok () m' → ∃ m₁, Did E (transferActs m.ledger tokenProg.key taker.key none
        (payments (js.map (priceAt b cfg source dest feeTo)))) m m₁ ∧
        basketEnd E swap maker tokenProg maker.key nonce seeds 5 none is m₁ = .ok () m' := by
    intro m' hx
    have hwp : wp (basketFill E taker swap maker tokenProg cfg maker.key nonce seeds wantBase is js)
        (fun _ m'' => m'' = m') (fun _ => False) m := by
      rw [wp, hx]
    obtain ⟨m₁,hd,hend⟩ := (basketFill_total hw ht hp h).mp hwp
    obtain ⟨u,m'',hm,rfl⟩ := wp_total hend
    exact ⟨m₁,hd,hm⟩
  refine ⟨⟨?_,?_⟩,?_⟩
  · rintro ⟨m',hx⟩
    obtain ⟨m₁,hd,hend⟩ := hsplit m' hx
    have hm := hpaid hd
    have hexact := (basketEnd_settles hw ht ha (h.paid hw hm)).1.mp ⟨m',hend⟩
    exact ⟨(hsame hm).mp hexact,hiff.mp ⟨m₁,hd⟩⟩
  · rintro ⟨hexact,hb⟩
    obtain ⟨m₁,hd⟩ := hiff.mpr hb
    have hm := hpaid hd
    obtain ⟨m',hend⟩ := (basketEnd_settles hw ht ha (h.paid hw hm)).1.mpr ((hsame hm).mpr hexact)
    obtain ⟨_,m'',hm'',-⟩ := wp_total ((basketFill_total hw ht hp h (Q := fun _ _ => True)).mpr
      ⟨m₁,hd,by rw [wp, hend]; trivial⟩)
    exact ⟨m'',hm''⟩
  · intro m' hx
    obtain ⟨m₁,hd,hend⟩ := hsplit m' hx
    have hm := hpaid hd
    have hready := h.paid hw hm
    have hempty := (basketEnd_settles hw ht ha hready).2 m' hend
    have hwp : wp (basketEnd E swap maker tokenProg maker.key nonce seeds 5 none is)
        (fun _ m'' => m'' = m') (fun _ => False) m₁ := by
      rw [wp, hend]
    obtain ⟨m₂,hrun,hclose⟩ := (basketEnd_total hw ht hready).mp hwp
    obtain ⟨s₃,h₃,rfl⟩ := (total_close _ _).mp hclose
    have hgave := hrun.delivery ht hready.legs
    have hrec := hm.plain swap.key (record_plain hw h.ending.last.owner)
    have hmaker := hm.plain maker.key h.wallet
    obtain ⟨hv,-⟩ := hready.legs.record hw hready.last.owner
    have howner := ((hrun.allFreed ht hready.legs).owners swap.key hv).trans hready.last.owner
    obtain ⟨hdrain,-⟩ := record_drained hw howner hready.last.apart h₃
    have hrent := totalRent_moved hm h.vaults
    constructor
    · rw [next_ledger, hdrain.balances]
      exact hm.booked.append hgave.booked
    · exact hempty.gone
    · rw [← hrec]
      exact hempty.wiped
    · rw [← hrec, ← hmaker, ← hrent]
      exact hempty.paid
    · intro a ha har hap
      rw [ends, List.flatMap_append, List.mem_append, not_or] at ha
      rw [next_ledger, hdrain.others a har hap, hgave.others a ha.2 hap, hm.others a ha.1]

end

/-! ## The call -/

section
variable {taker maker basket config : Pubkey} {cfg : FeePolicy} {nonce : Bytes}
  {vault goods owner source dest feeTo : ℕ → Pubkey} {c : Call}

structure FillAccounts (E : Env) (p basket maker taker config : Pubkey) (b : Bytes)
    (vault goods source dest feeTo : ℕ → Pubkey) : Prop where
  takerSlot : ∃ a, E.accounts[0]? = some a ∧ a.key = taker ∧ a.isSigner = true
  swapSlot : SlotIs E 1 basket
  makerSlot : SlotIs E 2 maker
  tokenSlot : SlotIs E 3 p
  configSlot : SlotIs E 4 config
  length : E.accounts.length = 5+(byteAt b bGiveCount).toNat*3+(byteAt b bWantCount).toNat*4
  gives : ∀ i < (byteAt b bGiveCount).toNat, LegSlots E 5 i (legAt b vault goods i)
  wants : ∀ j < (byteAt b bWantCount).toNat,
    SlotIs E (5+(byteAt b bGiveCount).toNat*3+j*4) (entryMint b bWant j) ∧
      SlotIs E (5+(byteAt b bGiveCount).toNat*3+j*4+1) (source j) ∧
      SlotIs E (5+(byteAt b bGiveCount).toNat*3+j*4+2) (dest j) ∧
      SlotIs E (5+(byteAt b bGiveCount).toNat*3+j*4+3) (feeTo j)
  writable : E.writable basket ∧ E.writable maker ∧
    (∀ i < (byteAt b bGiveCount).toNat, E.writable (vault i) ∧ E.writable (goods i)) ∧
    ∀ j < (byteAt b bWantCount).toNat, E.writable (source j) ∧ E.writable (dest j) ∧
      E.writable (feeTo j)

structure BasketOffered (b : Bytes) (taker : Pubkey) (clock : ℤ) : Prop where
  normal : byteAt b bAuthMode = authNormal
  wants : (byteAt b bWantCount).toNat ≠ 0
  unexpired : clock < i64At b bExpiry
  admitted : keyAt b bTaker = zeroKey ∨ keyAt b bTaker = taker

def wantsOf (b : Bytes) (cfg : FeePolicy) (source dest feeTo : ℕ → Pubkey) : List (Flow Pubkey) :=
  wantFlows b cfg source dest feeTo (List.range (byteAt b bWantCount).toNat)

theorem fillBasket_fills (h : BasketAt E m.ledger maker nonce basket)
    (ha : FillAccounts E p basket maker taker config (m.ledger basket).data vault goods source
      dest feeTo)
    (ho : BasketOffered (m.ledger basket).data taker E.clock) (hcfg : IsConfig E m.ledger config) :
    ∃ tk swap mk tp : AccountInfo, tk.key = taker ∧ swap.key = basket ∧ mk.key = maker ∧
      tp.key = p ∧ ∀ {Q F}, wp (fillBasket E nonce) Q F m ↔ wp (basketFill E tk swap mk tp
        (feePolicy (m.ledger config).data) maker nonce
        (bumped (basketSeeds maker nonce) (byteAt (m.ledger basket).data bBump))
        (5+(byteAt (m.ledger basket).data bGiveCount).toNat*3)
        (List.range (byteAt (m.ledger basket).data bGiveCount).toNat)
        (List.range (byteAt (m.ledger basket).data bWantCount).toNat)) Q F m := by
  obtain ⟨tk,htk,rfl,hsig⟩ := ha.takerSlot
  obtain ⟨swap,hs,rfl⟩ := ha.swapSlot.getElem
  obtain ⟨mk,hm,rfl⟩ := ha.makerSlot.getElem
  obtain ⟨tp,ht,rfl⟩ := ha.tokenSlot.getElem
  obtain ⟨cf,hc,rfl⟩ := ha.configSlot.getElem
  refine ⟨tk,swap,mk,tp,rfl,rfl,rfl,rfl,?_⟩
  intro Q F
  have hlen := ha.length
  have hwants := ho.wants
  obtain ⟨_,htk⟩ := List.getElem?_eq_some_iff.mp htk
  simp [fillBasket, basketFill, basketEnd, h.nonce, slice_all, hlen, htk, hsig, hs, hm, ht, hc,
    h.owner, h.record.length, h.record.isOpen, ho.normal, hwants, h.record.maker, h.address, hcfg]
  have hfive : ¬5+(byteAt (m.ledger swap.key).data bGiveCount).toNat*3+
      (byteAt (m.ledger swap.key).data bWantCount).toNat*4 < 5 := by omega
  have hadm : ¬keyAt (m.ledger swap.key).data bTaker = zeroKey →
      keyAt (m.ledger swap.key).data bTaker = tk.key := ho.admitted.resolve_left
  have hlive := ho.unexpired
  constructor
  · exact fun hx => ((hx.1 (by omega)).1 hlive).1 hadm
  · exact fun hx => ⟨fun _ => ⟨fun _ => ⟨fun _ => hx,fun hz hn => absurd (hadm hz) hn⟩,
      fun _ => by omega⟩,
      fun hlt => absurd hlt hfive⟩

structure BasketFunds (H : Host) (s : Ledger) (p maker taker config : Pubkey) (nonce b : Bytes)
    (source dest feeTo : ℕ → Pubkey) : Prop where
  isMint : ∀ j < (byteAt b bWantCount).toNat, IsMint p s (entryMint b bWant j)
  purse : ∀ j < (byteAt b bWantCount).toNat, Receives s p (source j) (entryMint b bWant j) taker 0
  proceeds : ∀ j < (byteAt b bWantCount).toNat, Receives s p (dest j) (entryMint b bWant j) maker
    (inTo (wantsOf b (feePolicy (s config).data) source dest feeTo) (dest j))
  fee : ∀ j < (byteAt b bWantCount).toNat,
    0 < exactFee (feePolicy (s config).data) (entryAmount b bWant j) →
      Receives s p (feeTo j) (entryMint b bWant j) ((feePolicy (s config).data).collector config)
        (inTo (wantsOf b (feePolicy (s config).data) source dest feeTo) (feeTo j))
  shard : (feePolicy (s config).data).feeShards ≠ 0 → ∀ j < (byteAt b bWantCount).toNat, ∃ bump,
    H.findProgramAddress (feeVaultSeeds (entryMint b bWant j)
      (byteAt nonce 0 % (feePolicy (s config).data).feeShards)) H.programId = some (feeTo j,bump)
  strangers : taker ≠ maker ∧ taker ≠ (feePolicy (s config).data).collector config
  wallet : tokenAt s maker = none

theorem BasketFunds.feeStands {b : Bytes} {j : ℕ}
    (h : BasketFunds E.host s p maker taker config nonce b source dest feeTo)
    (hj : j < (byteAt b bWantCount).toNat)
    (hf : 0 < exactFee (feePolicy (s config).data) (entryAmount b bWant j)) :
    FeeStands E s (feePolicy (s config).data) (feeTo j) (entryMint b bWant j) (byteAt nonce 0) := by
  unfold FeeStands
  by_cases hz : (feePolicy (s config).data).feeShards = 0
  · rw [if_pos hz]
    obtain ⟨t,ht,-,hm,ha,-⟩ := h.fee j hj hf
    rw [FeePolicy.collector, if_pos hz] at ha
    exact ⟨t,ht,hm,ha⟩
  · rw [if_neg hz]
    exact h.shard hz j hj

/-- Both ends of the payments are accounts of want mints. -/
theorem BasketFunds.ends_wanted {b : Bytes} {a : Pubkey}
    (h : BasketFunds H s p maker taker config nonce b source dest feeTo)
    (ha : a ∈ ends (wantsOf b (feePolicy (s config).data) source dest feeTo)) :
    ∃ j < (byteAt b bWantCount).toNat, ∃ t, tokenAt s a = some t ∧
      t.mint = entryMint b bWant j := by
  obtain ⟨f,hf,haf⟩ := List.mem_flatMap.mp ha
  obtain ⟨t,ht,rfl⟩ := List.mem_map.mp hf
  obtain ⟨w,hw,hcase⟩ := mem_payments.mp ht
  obtain ⟨j,hj,rfl⟩ := List.mem_map.mp hw
  rw [List.mem_range] at hj
  refine ⟨j,hj,?_⟩
  have hpurse := h.purse j hj
  rcases hcase with ⟨hpos,rfl⟩ | rfl
  · rcases List.mem_pair.mp haf with rfl | rfl
    · obtain ⟨t,ht,-,hm,-⟩ := hpurse
      exact ⟨t,ht,hm⟩
    · obtain ⟨t,ht,-,hm,-⟩ := h.fee j hj hpos
      exact ⟨t,ht,hm⟩
  · rcases List.mem_pair.mp haf with rfl | rfl
    · obtain ⟨t,ht,-,hm,-⟩ := hpurse
      exact ⟨t,ht,hm⟩
    · obtain ⟨t,ht,-,hm,-⟩ := h.proceeds j hj
      exact ⟨t,ht,hm⟩

theorem BasketFunds.sendable {b : Bytes} (hp : IsTokenProgram p)
    (h : BasketFunds E.host s p maker taker config nonce b source dest feeTo)
    (ha : FillAccounts E p basket maker taker config b vault goods source dest feeTo) :
    Sendable E s p taker none (payments ((List.range (byteAt b bWantCount).toNat).map
      (priceAt b (feePolicy (s config).data) source dest feeTo))) := by
  obtain ⟨tk,htk,htkey,hsig⟩ := ha.takerSlot
  obtain ⟨tp,htp,htpk⟩ := ha.tokenSlot.getElem
  -- a payment is a fee or the rest of a price
  have hcase : ∀ t ∈ payments ((List.range (byteAt b bWantCount).toNat).map
      (priceAt b (feePolicy (s config).data) source dest feeTo)), ∃ j < (byteAt b bWantCount).toNat,
        t.source = source j ∧ t.mint = entryMint b bWant j ∧ ∃ owner, owner ≠ taker ∧
        E.writable t.dest ∧
          Receives s p t.dest (entryMint b bWant j) owner
            (inTo (wantsOf b (feePolicy (s config).data) source dest feeTo) t.dest) := by
    intro t ht
    obtain ⟨w,hw,hcase⟩ := mem_payments.mp ht
    obtain ⟨j,hj,rfl⟩ := List.mem_map.mp hw
    rw [List.mem_range] at hj
    have hwr := ha.writable.2.2.2 j hj
    rcases hcase with ⟨hpos,rfl⟩ | rfl
    · exact ⟨j,hj,rfl,rfl,_,h.strangers.2.symm,hwr.2.2,h.fee j hj hpos⟩
    · exact ⟨j,hj,rfl,rfl,_,h.strangers.1.symm,hwr.2.1,h.proceeds j hj⟩
  constructor
  · intro t ht
    obtain ⟨j,hj,hs,hm,-⟩ := hcase t ht
    rw [hs, hm]
    exact
      { program := hp
        passed := ⟨tp,List.mem_of_getElem? htp,htpk⟩
        seeds := by simp
        signs := .inl ⟨tk,List.mem_of_getElem? htk,htkey,hsig⟩
        writable := (ha.writable.2.2.2 j hj).1
        isMint := h.isMint j hj
        holds := h.purse j hj }
  · intro t ht
    obtain ⟨j,-,-,hm,owner,-,-,hr⟩ := hcase t ht
    rw [hm]
    exact ⟨owner,hr.mono (Nat.zero_le _)⟩
  · intro t ht
    obtain ⟨_,-,-,-,_,-,hwr,-⟩ := hcase t ht
    exact hwr
  · intro t ht t' ht'
    obtain ⟨j,hj,hs,-⟩ := hcase t ht
    obtain ⟨_,-,-,-,owner,hne,-,hr⟩ := hcase t' ht'
    rw [hs]
    exact (h.purse j hj).ne hr hne.symm
  · intro t ht
    obtain ⟨_,-,-,-,_,-,-,u,hu,-,-,-,-,hroom⟩ := hcase t ht
    rw [balance_of hu]
    exact hroom

theorem BasketStands.ready (hw : Wellformed E) (hc : E.host.CollisionFree)
    (h : BasketStands E.host s maker nonce basket vault) (hform : BasketForm (s basket).data)
    (hbps : (feePolicy (s config).data).feeBps ≤ bpsDenom)
    (hpay : BasketPayable E.host s p basket maker vault goods owner)
    (hfunds : BasketFunds E.host s p maker taker config nonce (s basket).data source dest feeTo)
    (ha : FillAccounts E p basket maker taker config (s basket).data vault goods source dest
      feeTo) :
    BasketReady E s taker basket maker p (feePolicy (s config).data) nonce (s basket).data
      (bumped (basketSeeds maker nonce) (byteAt (s basket).data bBump))
      (5+(byteAt (s basket).data bGiveCount).toNat*3) vault goods source dest feeTo
      (List.range (byteAt (s basket).data bGiveCount).toNat)
      (List.range (byteAt (s basket).data bWantCount).toNat) := by
  obtain ⟨tp,htp,htpk⟩ := ha.tokenSlot.getElem
  -- what is given is of other mints than what is paid
  have hother : ∀ {i a t}, i < (byteAt (s basket).data bGiveCount).toNat → tokenAt s a = some t →
      t.mint = entryMint (s basket).data bGive i →
      a ∉ Flows.ends (wantsOf (s basket).data (feePolicy (s config).data) source dest feeTo) := by
    intro i a t hi hat hm hin
    obtain ⟨j,hj,t',ht',hm'⟩ := hfunds.ends_wanted hin
    obtain rfl : t = t' := Option.some_inj.mp (hat.symm.trans ht')
    exact hform.apart i hi j hj (hm.symm.trans hm')
  constructor
  · exact hbps
  · intro j hj
    rw [List.mem_range] at hj
    obtain ⟨hmint,hsource,hdest,hfee⟩ := ha.wants j hj
    obtain ⟨t,ht,-,hm,hauth,-⟩ := hfunds.proceeds j hj
    refine ⟨?_,hmint,hsource,hdest,hfee,⟨p,hfunds.isMint j hj⟩,⟨t,ht,hm,hauth⟩,hfunds.feeStands hj⟩
    have hlt : j < maxLeg := hj.trans_le hform.wants
    rw [hform.length]
    simp only [maxLeg, bWant, entryLen, basketLen] at *
    omega
  · exact hfunds.sendable hpay.program ha
  · exact h.endable hw hc hpay (fun _ _ ho => by cases ho) ⟨tp,List.mem_of_getElem? htp,htpk⟩
      ⟨ha.writable.1,ha.writable.2.1,ha.writable.2.2.1⟩ ha.gives
  · intro i hi
    rw [List.mem_range] at hi
    obtain ⟨_,-,-,t,ht,hm,-⟩ := h.stocked i hi
    obtain ⟨td,htd,-,hmd,-⟩ := hpay.receives i hi
    refine ⟨hother hi ht hm,inTo_zero fun f hf he => ?_⟩
    apply hother hi htd hmd
    exact List.mem_flatMap.mpr ⟨f,hf,List.mem_pair.mpr (.inr he.symm)⟩
  · exact hfunds.wallet

theorem basket_form (hs : SystemRules H) (hf : Confined H) (hc : H.CollisionFree)
    (hsys : H.programId ≠ systemId) (hg : Genesis H s₀) (hrun : Run H (Assumed H) s₀ s)
    (hk : (Place.basket maker nonce).At H basket) (hl : Live H (s basket)) :
    BasketForm (s basket).data := by
  have hany : Run H AnyStep s₀ s := Relation.ReflTransGen.mono (fun _ _ ⟨a,h,_⟩ => ⟨a,h,trivial⟩)
    _ _ hrun
  cases run_basketSlot hs hf hc hg hany hk with
  | vacant ho _ => exact absurd (hl.1.symm.trans ho) hsys
  | wiped hwiped => exact absurd hwiped.2 hl.2
  | formed _ hform => exact hform

/-- In every reachable state the fill of a live basket that is offered to the
taker is accepted exactly while no vault has more than its entry and each
account of the taker has the sum of what leaves it. Then these payments and the
entries are all the tokens that move, and all rent is with the maker. -/
theorem basket_fill (hs : SystemRules H) (ht : TokenRules H) (ha : TokenAccepts H) (hf : Confined H)
    (hno : NoSeizure H) (hc : H.CollisionFree) (hsys : H.programId ≠ systemId) (hg : Genesis H s₀)
    (hrun : Run H (Assumed H) s₀ s) (hcfg : SoundConfig H config s)
    (hconfig : Sdk.configPda H = some config) (hk : (Place.basket maker nonce).At H basket)
    (hl : Live H (s basket))
    (hv : ∀ i < (byteAt (s basket).data bGiveCount).toNat,
      (H.findProgramAddress (bvaultSeeds maker nonce (UInt8.ofNat i)) H.programId).map Prod.fst =
      some (vault i))
    (hon : c.On H) (hd : c.data = 13 :: nonce)
    (hacc : FillAccounts c.env p basket maker taker config (s basket).data vault goods source
      dest feeTo)
    (hoff : BasketOffered (s basket).data taker c.env.clock)
    (hpay : BasketPayable H s p basket maker vault goods owner)
    (hfunds : BasketFunds H s p maker taker config nonce (s basket).data source dest feeTo) :
    ((∃ m, c.result s = some m) ↔ (∀ i < (byteAt (s basket).data bGiveCount).toNat,
      Exact s (vault i) (entryAmount (s basket).data bGive i)) ∧
      ∀ a, outOf (wantsOf (s basket).data (feePolicy (s config).data) source dest feeTo)
        a ≤ balance s a) ∧
    ∀ m, c.result s = some m → Bartered s m.ledger
      (wantsOf (s basket).data (feePolicy (s config).data) source dest feeTo) basket maker
      (legsOf (s basket).data vault goods) := by
  have h := basket_stands hs ht hf hno hc hsys hg hrun hk hl hv
  have hform := basket_form hs hf hc hsys hg hrun hk hl
  obtain ⟨rfl,hw⟩ := hon
  obtain ⟨hisConfig,hbps⟩ := hcfg.isConfig hconfig
  have hready := h.ready hw hc hform hbps hpay hfunds hacc
  obtain ⟨tk,swap,mk,tp,rfl,rfl,rfl,rfl,hx⟩ :=
    fillBasket_fills (m := ⟨s,[]⟩) h.at hacc hoff hisConfig
  have hread := basketFill_settles (m := ⟨s,[]⟩) hw ht ha hpay.program hready
  have hsame : ∀ m, fillBasket c.env nonce ⟨s,[]⟩ = .ok () m ↔ basketFill c.env tk swap mk tp
      (feePolicy (s config).data) mk.key nonce
      (bumped (basketSeeds mk.key nonce) (byteAt (s swap.key).data bBump))
      (5+(byteAt (s swap.key).data bGiveCount).toNat*3)
      (List.range (byteAt (s swap.key).data bGiveCount).toNat)
      (List.range (byteAt (s swap.key).data bWantCount).toNat) ⟨s,[]⟩ = .ok () m := by
    intro m
    rw [ok_iff, ok_iff, hx]
  simp only [Call.result_iff hd]
  change ((∃ m, fillBasket c.env nonce ⟨s,[]⟩ = .ok () m) ↔ _) ∧
    ∀ m, fillBasket c.env nonce ⟨s,[]⟩ = .ok () m → _
  simp only [hsame]
  simp only [List.mem_range] at hread
  exact hread

end

section
open Xete.Market Xete.Reference

theorem market_config (h : s configKey = ⟨1,programKey,configData⟩) :
    SoundConfig market configKey s := by
  refine ⟨configData,⟨?_,?_,?_⟩,by decide,by decide⟩ <;> rw [h]
  · rfl
  · decide

def pairFlows : List (Flow Pubkey) :=
  [⟨takerB,feeB,3⟩,⟨takerB,makerB,297⟩,⟨takerB,feeB,2⟩,⟨takerB,makerB,198⟩]

section
variable (h : PairsStand s)
include h

theorem PairsStand.flows : wantsOf (s basketKey).data (feePolicy (s configKey).data)
    (fun _ => takerB) (fun _ => makerB) (fun _ => feeB) = pairFlows := by
  have hprice : ∀ j < 2, priceAt (s basketKey).data (feePolicy (s configKey).data) (fun _ => takerB)
      (fun _ => makerB) (fun _ => feeB) j =
        ⟨mintB,takerB,makerB,feeB,pairWant j,exactFee ⟨100,0,Market.feeWallet,0⟩ (pairWant j)⟩ := by
    intro j hj
    rw [priceAt, (h.want j hj).1, (h.want j hj).2, arcade_policy h.config]
  rw [wantsOf, h.wants, wantFlows]
  show (payments [priceAt _ _ _ _ _ 0,priceAt _ _ _ _ _ 1]).map Transfer.flow = _
  rw [hprice 0 (by decide), hprice 1 (by decide)]
  rfl

/-- The want entries are paid from one account to one, and so are their fees. -/
theorem PairsStand.funds : BasketFunds market s splTokenId Market.maker Market.taker configKey
    Market.nonce (s basketKey).data (fun _ => takerB) (fun _ => makerB) (fun _ => feeB) := by
  have hcollector : (feePolicy (s configKey).data).collector configKey = Market.feeWallet := by
    rw [arcade_policy h.config]
    rfl
  constructor
  · intro j hj
    rw [(h.want j (h.wants ▸ hj)).1]
    exact h.isMint
  · intro j hj
    rw [(h.want j (h.wants ▸ hj)).1]
    exact h.purse.1
  · intro j hj
    rw [(h.want j (h.wants ▸ hj)).1, h.flows]
    exact h.proceeds
  · intro j hj _
    rw [(h.want j (h.wants ▸ hj)).1, h.flows, hcollector]
    exact h.fee
  · intro hz
    rw [arcade_policy h.config] at hz
    exact absurd rfl hz
  · rw [hcollector]
    decide
  · exact h.wallet

theorem PairsStand.fillAccounts : FillAccounts fillPairsCall.env splTokenId basketKey Market.maker
    Market.taker configKey (s basketKey).data pairVault (fun _ => takerA) (fun _ => takerB)
    (fun _ => makerB) (fun _ => feeB) := by
  constructor
  · exact ⟨_,rfl,rfl,rfl⟩
  · rfl
  · rfl
  · rfl
  · rfl
  · rw [h.gives, h.wants]
    rfl
  · intro i hi
    rw [h.gives] at hi
    rw [h.leg hi]
    obtain rfl | rfl : i = 0 ∨ i = 1 := by omega
    · exact ⟨rfl,rfl,rfl⟩
    · exact ⟨rfl,rfl,rfl⟩
  · intro j hj
    rw [h.wants] at hj
    rw [(h.want j hj).1, h.gives]
    obtain rfl | rfl : j = 0 ∨ j = 1 := by omega
    · exact ⟨rfl,rfl,rfl,rfl⟩
    · exact ⟨rfl,rfl,rfl,rfl⟩
  · refine ⟨by decide,by decide,fun i hi => ?_,fun _ _ => by decide⟩
    rw [h.gives] at hi
    obtain rfl | rfl : i = 0 ∨ i = 1 := by omega
    · exact ⟨by decide,by decide⟩
    · exact ⟨by decide,by decide⟩

theorem PairsStand.afford (a : Pubkey) : outOf pairFlows a ≤ balance s a := by
  by_cases ha : takerB = a
  · subst ha
    exact h.purse.2
  · simp [pairFlows, outOf, ha]

end

/-- Sixty and forty units for three hundred and two hundred, for a fee of five together. -/
theorem basket_fill_paid : ∃ m₁ m₂ : Machine,
    (openPairsCall 60 40 300 200).result start = some m₁ ∧
    fillPairsCall.result m₁.ledger = some m₂ ∧
    Bartered m₁.ledger m₂.ledger pairFlows basketKey Market.maker
      [⟨mintA,bvaultKey,takerA,60⟩,⟨mintA,bvaultKeyB,takerA,40⟩] := by
  obtain ⟨m₁,h₁,hrun,h⟩ := pairs_opened
  have hcall : fillPairsCall.On market := sees_on _ _ _ _ (by decide)
  have hplain : ¬market.IsPda Market.taker :=
    hcall.wellformed.signers ⟨Market.taker,true,true⟩ (by decide) rfl
  have hoff : BasketOffered (m₁.ledger basketKey).data Market.taker 1 :=
    ⟨h.mode,by rw [h.wants]; decide,by rw [h.expiry]; decide,.inl h.anyone⟩
  obtain ⟨hiff,hdone⟩ := basket_fill (host_systemRules _ _) (host_tokenRules _ _)
    (host_tokenAccepts _ _) market_confined market_noSeizure market_collisionFree
    market_apart.notSystem start_genesis hrun (market_config h.config) rfl
    (⟨rfl,255,by decide⟩ : (Place.basket Market.maker Market.nonce).At market basketKey) h.live
    h.addresses hcall rfl h.fillAccounts hoff (h.payable h.goods hplain) h.funds
  rw [h.flows] at hiff hdone
  rw [h.twoLegs] at hdone
  obtain ⟨m₂,h₂⟩ := hiff.mpr ⟨h.exacts,h.afford⟩
  exact ⟨m₁,m₂,h₁,h₂,hdone m₂ h₂⟩

end

end Xete.Swap
