import XetePrograms.Swap.Trace

/-!
# The acts of a payment with a royalty

The royalty, the maker's part of it and the creators come from the canonical
metadata; the parts paid to the creators add up to the royalty.
-/

set_option autoImplicit false

namespace Xete.Swap
open Xete.Octets Xete.Weakest Xete.Chain Xete.Token Xete.Runtime Xete.Rules

variable {E : Env} {m m' : Machine}

/-! ## Payments -/

def IsPayment (tokenProg source mint authority : Pubkey) (as : List Act) : Prop :=
  ∀ a ∈ as, ∃ dest n dec, a = transferAct tokenProg source mint dest authority n dec none

theorem isPayment_feeActs (tokenProg source mint feeAta authority : Pubkey) (fee : ℕ)
    (dec : UInt8) :
    IsPayment tokenProg source mint authority
      (feeActs tokenProg source mint feeAta authority fee dec none) := by
  intro a ha
  unfold feeActs at ha
  split at ha
  · exact ⟨_,_,_,List.mem_singleton.mp ha⟩
  · cases ha

theorem isPayment_priceActs (tokenProg source mint feeAta dest authority : Pubkey) (price fee : ℕ)
    (dec : UInt8) : IsPayment tokenProg source mint authority
      (priceActs tokenProg source mint feeAta dest authority price fee dec none) := by
  intro a ha
  rcases List.mem_append.mp ha with ha | ha
  · exact isPayment_feeActs _ _ _ _ _ _ _ a ha
  · exact ⟨_,_,_,List.mem_singleton.mp ha⟩

theorem isPayment_royaltyActs (tokenProg source mint authority : Pubkey) (dec : UInt8)
    (parts : List (AccountInfo × ℕ)) :
    IsPayment tokenProg source mint authority
      (royaltyActs tokenProg source mint authority dec parts) := by
  intro a ha
  obtain ⟨p,-,hp⟩ := List.mem_flatMap.mp ha
  split at hp
  · exact ⟨_,_,_,List.mem_singleton.mp hp⟩
  · cases hp

theorem IsPayment.append {tokenProg source mint authority : Pubkey} {as bs : List Act}
    (ha : IsPayment tokenProg source mint authority as)
    (hb : IsPayment tokenProg source mint authority bs) :
    IsPayment tokenProg source mint authority (as ++ bs) := by
  intro a h
  rcases List.mem_append.mp h with h | h
  · exact ha a h
  · exact hb a h

theorem IsPayment.signs {tokenProg source mint authority : Pubkey} {as : List Act}
    (h : IsPayment tokenProg source mint authority as) (k : Pubkey) : ¬SignsIn E as k := by
  rintro ⟨c,seeds,hm,-⟩
  obtain ⟨dest,n,dec,he⟩ := h _ hm
  cases he

theorem IsPayment.touches {tokenProg source mint authority : Pubkey} {as : List Act}
    (h : IsPayment tokenProg source mint authority as) (k : Pubkey) : ¬TouchedIn as k := by
  rintro (⟨d,hm⟩ | ⟨dest,hm⟩)
  · obtain ⟨dest,n,dec,he⟩ := h _ hm
    cases he
  · obtain ⟨dest',n,dec,he⟩ := h _ hm
    cases he

theorem IsPayment.quiet {tokenProg source mint authority : Pubkey} {as : List Act}
    (h : IsPayment tokenProg source mint authority as) (b : Bytes) : .log b ∉ as := by
  intro hm
  obtain ⟨dest,n,dec,he⟩ := h _ hm
  cases he

structure Idle (E : Env) (as : List Act) : Prop where
  signs : ∀ k, ¬SignsIn E as k
  touches : ∀ k, ¬TouchedIn as k
  quiet : ∀ b, .log b ∉ as

theorem idle_delistActs (maker feeWallet : Pubkey) (fee : ℕ) :
    Idle E (delistActs maker feeWallet fee) := by
  unfold delistActs
  split <;> constructor <;> simp

theorem IsPayment.idle {tokenProg source mint authority : Pubkey} {as : List Act}
    (h : IsPayment tokenProg source mint authority as) : Idle E as :=
  ⟨h.signs,h.touches,h.quiet⟩

/-! ## The split -/

theorem splitFloors_sum (total : ℕ) (shares : List UInt8) (paid : ℕ) (r : List ℕ × ℕ)
    (h : splitFloors total shares paid = some r) :
    r.1.length = shares.length ∧ r.2 = paid+r.1.sum := by
  induction shares generalizing paid r with
  | nil =>
    cases h
    exact ⟨rfl,rfl⟩
  | cons sh shares ih =>
    simp only [splitFloors] at h
    split at h
    · cases h
    · obtain ⟨q,hq,rfl⟩ := Option.map_eq_some_iff.mp h
      obtain ⟨hl,hs⟩ := ih _ _ hq
      simp only [List.length_cons, List.sum_cons]
      omega

/-- The parts of a split add up to the whole. -/
theorem splitByShare_sum (total : ℕ) (shares : List UInt8) (out : List ℕ) (hn : shares ≠ [])
    (h : splitByShare total shares = some out) :
    shares.length ≤ out.length ∧ (out.take shares.length).sum = total := by
  have hpos := List.length_pos_of_ne_nil hn
  simp only [splitByShare, if_neg hn, Option.bind_eq_bind, Option.bind_eq_some_iff, Option.pure_def,
    Option.some.injEq, guard, Prod.exists] at h
  obtain ⟨_,-,fl,paid,hf,u,hg,rfl⟩ := h
  split at hg
  · rename_i hle
    obtain ⟨hl,hs⟩ := splitFloors_sum _ _ _ _ hf
    simp only [List.length_dropLast, zero_add] at hl hs
    have hlen : shares.length = (fl ++ [total-paid]).length := by simp [hl]; omega
    constructor
    · rw [List.length_append, ← hlen]
      omega
    · rw [hlen, List.take_left]
      simp [← hs]
      omega
  · cases hg

theorem sum_zip_take {α : Type} (xs : List α) (ys : List ℕ) (h : xs.length ≤ ys.length) :
    ((xs.zip ys).map Prod.snd).sum = (ys.take xs.length).sum := by
  induction xs generalizing ys with
  | nil => simp
  | cons x xs ih =>
    cases ys with
    | nil => simp at h
    | cons y ys =>
      have hl : xs.length ≤ ys.length := by simpa using h
      simp [ih ys hl]

/-! ## The terms -/

structure Resolved (E : Env) (s : Ledger) (giveMint wantMint md : Pubkey) (want bps : ℕ)
    (mode pct : UInt8) (atas : List AccountInfo) (t : RoyaltyTerms) : Prop where
  metadata : IsMetadata E s md giveMint
  parsed : parseTmRoyalty (s md).data = some (bps,t.creators)
  positive : bps ≠ 0
  creators : t.creators ≠ []
  shares : (t.creators.map fun c => c.2.toNat).sum = 100
  royalty : t.royalty = bpsOf want bps
  stance : mode = royaltyMaker ∨ mode = royaltyTaker ∨ mode = royaltySplit
  makerShare : t.makerShare = if mode = royaltyMaker then t.royalty
    else if mode = royaltyTaker then 0 else t.royalty*pct.toNat/100 % 2^64
  count : atas.length = t.creators.length
  owned : ∀ p ∈ atas.zip t.creators, BelongsTo s p.1.key wantMint p.2.1

def Royalty (E : Env) (s : Ledger) (giveMint wantMint : Pubkey) (want : ℕ) (mode pct : UInt8)
    (metadata : Option AccountInfo) (atas : List AccountInfo) (t : RoyaltyTerms) : Prop :=
  (mode = royaltyNone ∧ t = ⟨0,0,[]⟩) ∨
    mode ≠ royaltyNone ∧ ∃ md bps, metadata = some md ∧
      Resolved E s giveMint wantMint md.key want bps mode pct atas t

theorem resolveRoyalty_resolved {wantMint giveMint : AccountInfo} (want : ℕ) (mode pct : UInt8)
    (md : Option AccountInfo) (atas : List AccountInfo) :
    wp (resolveRoyalty E wantMint want mode pct giveMint md atas)
      (fun t m' => m' = m ∧ Royalty E m.ledger giveMint.key wantMint.key want mode pct md atas t)
      (fun _ => True) m := by
  unfold resolveRoyalty
  split
  · rename_i h
    exact ⟨rfl,.inl ⟨h,rfl⟩⟩
  · rename_i hmode
    simp only [wp_bind, wp_unwrap, wp_verifyMetadataPda, wp_dataOf, wp_failIf, implies_true,
      and_true, not_or, not_not]
    intro mdAcct hmd hmeta p hp hz hsum hm _ hlen
    have hm' : mode = royaltyMaker ∨ mode = royaltyTaker ∨ mode = royaltySplit := by tauto
    have hloop := wp_forEach (F := fun _ => True)
      (fun left m' => m' = m ∧ ∀ q ∈ atas.zip p.2, q ∈ left ∨
      BelongsTo m.ledger q.1.key wantMint.key q.2.1)
      (fun q : AccountInfo × Pubkey × UInt8 => requireTokenAccount q.1 wantMint.key q.2.1) ?_
      (atas.zip p.2) m ⟨rfl,fun q hq => .inl hq⟩
    · refine wp_mono hloop ?_ (fun _ h => h)
      rintro _ m' ⟨rfl,hall⟩
      refine ⟨rfl,.inr ⟨hmode,mdAcct,p.1,hmd,?_⟩⟩
      exact
        { metadata := hmeta
          parsed := hp
          positive := hz.1
          creators := hz.2
          shares := hsum
          royalty := rfl
          stance := hm'
          makerShare := rfl
          count := hlen
          owned := fun q hq => (hall q hq).resolve_left (by simp) }
    · rintro q left m' ⟨rfl,hall⟩
      rw [wp_requireTokenAccount]
      refine ⟨fun hb => ⟨rfl,fun r hr => ?_⟩,fun _ => trivial⟩
      rcases hall r hr with hmem | hr
      · rcases List.mem_cons.mp hmem with rfl | hmem
        · exact .inr hb
        · exact .inl hmem
      · exact .inr hr

/-! ## The payment -/

structure PriceKeys where
  config : Pubkey
  tokenProg : Pubkey
  takerWant : Pubkey
  wantMint : Pubkey
  feeAta : Pubkey
  makerWant : Pubkey
  taker : Pubkey
  giveMint : Pubkey

structure Payment where
  dec : UInt8
  mode : UInt8
  pct : UInt8
  metadata : Option AccountInfo
  atas : List AccountInfo
  terms : RoyaltyTerms
  parts : List (AccountInfo × ℕ)

def plainPayment (dec : UInt8) : Payment := ⟨dec,royaltyNone,0,none,[],⟨0,0,[]⟩,[]⟩

/-- The fee, the rest of the price less the maker's part of the royalty, and the
parts of the creators. -/
def royaltyPriceActs (k : PriceKeys) (price fee : ℕ) (p : Payment) : List Act :=
  feeActs k.tokenProg k.takerWant k.wantMint k.feeAta k.taker fee p.dec none ++
    [transferAct k.tokenProg k.takerWant k.wantMint k.makerWant k.taker
      (price-fee-p.terms.makerShare) p.dec none] ++
    royaltyActs k.tokenProg k.takerWant k.wantMint k.taker p.dec p.parts

structure PaidWant (E : Env) (m m' : Machine) (k : PriceKeys) (price maxWant : ℕ)
    (shardSeed : UInt8) (p : Payment) : Prop where
  fee : FeePaid E m.ledger k.config k.feeAta k.wantMint price shardSeed
  royalty : Royalty E m.ledger k.giveMint k.wantMint price p.mode p.pct p.metadata p.atas p.terms
  shares : p.terms.makerShare ≤ p.terms.royalty
  covers : feeAt m.ledger k.config price+p.terms.makerShare ≤ price
  cap : price+(p.terms.royalty-p.terms.makerShare) ≤ maxWant
  creators : p.parts.map Prod.fst = p.atas
  total : (p.parts.map Prod.snd).sum = p.terms.royalty
  did : Did E (royaltyPriceActs k price (feeAt m.ledger k.config price) p) m m'

theorem royaltyActs_zero (tokenProg source mint authority : Pubkey) (dec : UInt8)
    (atas : List AccountInfo) :
    royaltyActs tokenProg source mint authority dec (atas.map fun a => (a,0)) = [] := by
  simp [royaltyActs]

theorem Royalty.split {s : Ledger} {giveMint wantMint : Pubkey} {want : ℕ} {mode pct : UInt8}
    {metadata : Option AccountInfo} {atas : List AccountInfo} {t : RoyaltyTerms}
    (h : Royalty E s giveMint wantMint want mode pct metadata atas t) (hpos : 0 < t.royalty) :
    t.creators ≠ [] ∧ atas.length = t.creators.length := by
  rcases h with ⟨-,rfl⟩ | ⟨-,md,bps,-,hr⟩
  · exact (Nat.lt_irrefl 0 hpos).elim
  · exact ⟨hr.creators,hr.count⟩

section
variable {config tokenProg takerWant wantMint feeAta makerWant taker : AccountInfo}

theorem payWantAndRoyalty_paid {giveMint : AccountInfo} (n maxWant : ℕ)
    (dec shardSeed mode pct : UInt8) (metadata : Option AccountInfo) (atas : List AccountInfo) :
    wp (payWantAndRoyalty E config tokenProg takerWant wantMint feeAta makerWant taker n maxWant dec
      shardSeed mode pct giveMint metadata atas)
      (fun _ m' => ∃ terms parts, PaidWant E m m' ⟨config.key,tokenProg.key,takerWant.key,
        wantMint.key, feeAta.key,makerWant.key,taker.key,giveMint.key⟩ n maxWant shardSeed
        ⟨dec,mode,pct,metadata,atas,terms,parts⟩) (fun _ => True) m := by
  simp only [payWantAndRoyalty, wp_bind, wp_readConfig, implies_true, and_true]
  intro hcfg
  refine wp_mono (resolveRoyalty_resolved _ _ _ _ _) ?_ (fun _ _ => trivial)
  rintro t m₀ ⟨hm,hroy⟩
  rw [hm]
  simp only [wp_bind, wp_checkedSub, wp_failIf, implies_true, and_true, not_lt]
  intro hsh _ hcap hfee hshare
  refine wp_mono (payFee_did _ _ _ _ _) ?_ (fun _ _ => trivial)
  rintro _ m₁ ⟨h₁,hdest⟩
  rw [wp_bind]
  refine wp_mono (did_perform _) (fun _ m₂ h₂ => ?_) (fun _ _ => trivial)
  have hmain := (did_append _ _ m m₂).mpr ⟨m₁,h₁,h₂⟩
  have hpaid : ∀ (parts : List (AccountInfo × ℕ)) (m' : Machine), parts.map Prod.fst = atas →
      (parts.map Prod.snd).sum = t.royalty →
      Did E (royaltyActs tokenProg.key takerWant.key wantMint.key taker.key dec parts) m₂ m' →
      PaidWant E m m' ⟨config.key,tokenProg.key,takerWant.key,wantMint.key,feeAta.key,makerWant.key,
        taker.key,giveMint.key⟩ n maxWant shardSeed ⟨dec,mode,pct,metadata,atas,t,parts⟩ := by
    intro parts m' hp ht hd
    exact
      { fee := ⟨hcfg,hfee,hdest⟩
        royalty := hroy
        shares := hsh
        covers := by
          simp only [feeAt]
          omega
        cap := hcap
        creators := hp
        total := ht
        did := (did_append _ _ m m').mpr ⟨m₂,hmain,hd⟩ }
  rw [wp_ite]
  refine ⟨fun hpos => ?_,fun hz => ?_⟩
  · obtain ⟨hne,hcount⟩ := hroy.split hpos
    rw [wp_bind, wp_unwrap]
    refine ⟨fun splits hs => ?_,fun _ => trivial⟩
    obtain ⟨hl,hsum⟩ := splitByShare_sum _ _ _ (by simpa using hne) hs
    simp only [List.length_map] at hl hsum
    refine wp_mono (royalty_did _ _) (fun _ m₃ h₃ => ?_) (fun _ _ => trivial)
    refine ⟨t,_,hpaid _ m₃ ?_ ?_ h₃⟩
    · rw [List.map_fst_zip]
      omega
    · rw [sum_zip_take _ _ (by omega), hcount, hsum]
  · refine ⟨t,atas.map fun a => (a,0),hpaid _ m₂ ?_ ?_ ?_⟩
    · simp [Function.comp_def]
    · simp [Function.comp_def]
      omega
    · rw [royaltyActs_zero]
      exact (did_nil m₂ m₂).mpr rfl

theorem royaltyPriceActs_plain (k : PriceKeys) (price fee : ℕ) (dec : UInt8) :
    royaltyPriceActs k price fee (plainPayment dec) = priceActs k.tokenProg k.takerWant k.wantMint
      k.feeAta k.makerWant k.taker price fee dec none := by
  simp [royaltyPriceActs, plainPayment, royaltyActs, priceActs]

/-- A price without a royalty is paid as one whose royalty is nothing. -/
theorem payWantLeg_paid (giveMint : Pubkey) {n maxWant : ℕ} (dec shardSeed : UInt8)
    (hmax : n ≤ maxWant) :
    wp (payWantLeg E config tokenProg takerWant wantMint feeAta makerWant taker n dec shardSeed)
      (fun _ m' => PaidWant E m m' ⟨config.key,tokenProg.key,takerWant.key,wantMint.key,feeAta.key,
        makerWant.key,taker.key,giveMint⟩ n maxWant shardSeed (plainPayment dec))
      (fun _ => True) m := by
  refine wp_mono (payWantLeg_did _ _ _) ?_ (fun _ _ => trivial)
  rintro _ m' ⟨hd,hfee⟩
  exact
    { fee := hfee
      royalty := .inl ⟨rfl,rfl⟩
      shares := Nat.le_refl 0
      covers := hfee.le
      cap := hmax
      creators := rfl
      total := rfl
      did := by
        rw [royaltyPriceActs_plain]
        exact hd }

end

theorem isPayment_royaltyPriceActs (k : PriceKeys) (price fee : ℕ) (p : Payment) :
    IsPayment k.tokenProg k.takerWant k.wantMint k.taker (royaltyPriceActs k price fee p) := by
  refine .append (.append (isPayment_feeActs _ _ _ _ _ _ _) ?_) (isPayment_royaltyActs _ _ _ _ _ _)
  intro a ha
  exact ⟨_,_,_,List.mem_singleton.mp ha⟩

theorem PaidWant.idle {k : PriceKeys} {price maxWant : ℕ} {shardSeed : UInt8} {p : Payment}
    (_ : PaidWant E m m' k price maxWant shardSeed p) :
    Idle E (royaltyPriceActs k price (feeAt m.ledger k.config price) p) :=
  (isPayment_royaltyPriceActs k price _ p).idle

/-! ## The payment for a record -/

structure RecordKeys extends PriceKeys where
  record : Pubkey
  maker : Pubkey

structure PaidRecord (E : Env) (d : Bytes) (m m₁ : Machine) (k : RecordKeys) (p : Payment) :
    Prop where
  slot : SlotIs E 1 k.record
  length : d.length = 48
  owner : (m.ledger k.record).owner = E.programId
  signed : E.signed k.taker
  fillable : MayFill E m.ledger k.record k.giveMint k.wantMint k.taker
  amount : u64At (m.ledger k.record).data sGiveAmt = u64At d 32
  maker : keyAt (m.ledger k.record).data sMaker = k.maker
  makerWant : BelongsTo m.ledger k.makerWant k.wantMint k.maker
  tokenProg : IsTokenProgram k.tokenProg
  wantOwner : (m.ledger k.wantMint).owner = k.tokenProg
  paid : PaidWant E m m₁ k.toPriceKeys (u64At (m.ledger k.record).data sWantAmt) (u64At d 40)
    (byteAt (slice d 0 32) 0) p

def paidActs (m : Machine) (k : RecordKeys) (p : Payment) : List Act :=
  royaltyPriceActs k.toPriceKeys (u64At (m.ledger k.record).data sWantAmt)
    (feeAt m.ledger k.config (u64At (m.ledger k.record).data sWantAmt)) p

theorem PaidRecord.idle {d : Bytes} {k : RecordKeys} {p : Payment} (h : PaidRecord E d m m' k p) :
    Idle E (paidActs m k p) := h.paid.idle

theorem PaidRecord.nonce {d : Bytes} {k : RecordKeys} {p : Payment} (h : PaidRecord E d m m' k p) :
    (slice d 0 32).length = 32 := slice_length _ _ _ (by have := h.length; omega)

end Xete.Swap
