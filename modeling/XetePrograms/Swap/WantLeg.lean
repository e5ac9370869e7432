import XetePrograms.Swap.Market
import XetePrograms.Swap.Metadata

/-!
# What a payment with a royalty moves

The fee, the maker's proceeds and the parts of the creators add up to the price
and the taker's part of the royalty, and every check comes before the first of
the transfers.
-/

set_option autoImplicit false

namespace Xete.Swap
open Xete.Octets Xete.Weakest Xete.Chain Xete.Token Xete.Runtime Xete.Rules Xete.Checked Xete.Market

variable {E : Env} {m m' : Machine} {X : ProgramError → Machine → Prop}

/-! ## The checks, with their errors -/

/-- A check failed: nothing was refused, no sum or difference was left out, and a
panic means that no address is derived from `seeds`. -/
def FailedCheck (H : Host) (seeds : List Bytes) (program : Pubkey) (e : ProgramError) : Prop :=
  e ∉ ([.refused,.arithmeticOverflow,.insufficientFunds] : List ProgramError) ∧
    (e = .panicked → H.findProgramAddress seeds program = none)

theorem failedCheck_of_ne {H : Host} {seeds : List Bytes} {program : Pubkey} {e : ProgramError}
    (h : e ∉ ([.refused,.arithmeticOverflow,.insufficientFunds] : List ProgramError))
    (h' : e ≠ .panicked) : FailedCheck H seeds program e :=
  ⟨h,fun he => (h' he).elim⟩

section
variable (acct : AccountInfo)

theorem wpe_requireTokenAccount (mint owner : Pubkey) {Q : Unit → Machine → Prop}
    (hQ : BelongsTo m.ledger acct.key mint owner → Q () m) (hX : X .invalidArgument m) :
    wpe (requireTokenAccount acct mint owner) Q X m := by
  simp only [requireTokenAccount, wpe_bind, wpe_dataOf, wpe_failIf, not_or, not_not, not_lt]
  refine ⟨fun h => hQ ⟨h.1,?_,?_⟩,fun _ => hX⟩
  · exact (slice_eq_key _ _ _ (by omega)).mp h.2.1
  · exact (slice_eq_key _ _ _ (by omega)).mp h.2.2

theorem wpe_readConfig {Q : FeePolicy → Machine → Prop}
    (hQ : IsConfig E m.ledger acct.key → Q (feePolicy (m.ledger acct.key).data) m)
    (hX : ∀ e, FailedCheck E.host configSeeds E.programId e → X e m) :
    wpe (readConfig E acct) Q X m := by
  simp only [readConfig, findAddress, wpe_bind, wpe_ownerOf, wpe_failIf, wpe_unwrap, wpe_dataOf,
    wpe_pure, Prod.forall, not_not]
  refine ⟨fun ho => ⟨fun a b hf => ⟨fun ha => ⟨fun hl => hQ ⟨ho,⟨b,ha ▸ hf⟩,hl⟩,fun _ => ?_⟩,
    fun _ => ?_⟩,fun hf => hX _ ⟨by decide,fun _ => hf⟩⟩,fun _ => ?_⟩ <;>
  exact hX _ (failedCheck_of_ne (by decide) (by decide))

theorem wpe_verifyMetadataPda (mint : AccountInfo) {Q : Unit → Machine → Prop}
    (hQ : IsMetadata E m.ledger acct.key mint.key → Q () m)
    (hX : ∀ e, FailedCheck E.host (metadataSeeds mint.key) tokenMetadataId e → X e m) :
    wpe (verifyMetadataPda E acct mint) Q X m := by
  simp only [verifyMetadataPda, wpe_bind, wpe_ownerOf, wpe_failIf, wpe_unwrap, Prod.forall, not_not]
  refine ⟨fun ho => ⟨fun a b hf => ⟨fun ha => hQ ⟨ho,b,ha ▸ hf⟩,fun _ => ?_⟩,
    fun hf => hX _ ⟨by decide,fun _ => hf⟩⟩,fun _ => ?_⟩ <;>
  exact hX _ (failedCheck_of_ne (by decide) (by decide))

theorem wpe_verifyFeeDest (mint : AccountInfo) (wallet : Pubkey) (shards seed : UInt8)
    {Q : Unit → Machine → Prop}
    (hQ : IsFeeDest E m.ledger acct.key mint.key wallet shards seed → Q () m)
    (hX : ∀ e, FailedCheck E.host (feeVaultSeeds mint.key (seed % shards)) E.programId e →
      (e = .panicked → shards ≠ 0) → X e m) :
    wpe (verifyFeeDest E acct mint wallet shards seed) Q X m := by
  unfold verifyFeeDest
  unfold IsFeeDest at hQ
  by_cases hs : shards = 0
  · rw [if_pos hs]
    rw [if_pos hs] at hQ
    exact wpe_requireTokenAccount acct _ _ hQ
      (hX _ (failedCheck_of_ne (by decide) (by decide)) (by simp))
  · rw [if_neg hs]
    rw [if_neg hs] at hQ
    simp only [findAddress, wpe_bind, wpe_failIf, wpe_unwrap, Prod.forall, not_not]
    exact ⟨fun a b hf => ⟨fun ha => hQ ⟨b,ha ▸ hf⟩,
      fun _ => hX _ (failedCheck_of_ne (by decide) (by decide)) (by simp)⟩,
      fun hf => hX _ ⟨by decide,fun _ => hf⟩ fun _ => hs⟩

end

/-- The terms that the checks leave, with the bound on a split that they check. -/
theorem wpe_resolveRoyalty {wantMint giveMint : AccountInfo} (want : ℕ) (mode pct : UInt8)
    (md : Option AccountInfo) (atas : List AccountInfo) {Q : RoyaltyTerms → Machine → Prop}
    (hQ : ∀ t, Royalty E m.ledger giveMint.key wantMint.key want mode pct md atas t →
      (mode = royaltySplit → pct.toNat ≤ 100) → Q t m)
    (hX : ∀ e, FailedCheck E.host (metadataSeeds giveMint.key) tokenMetadataId e → X e m) :
    wpe (resolveRoyalty E wantMint want mode pct giveMint md atas) Q X m := by
  have hx : ∀ e, e ∉ ([.refused,.arithmeticOverflow,.insufficientFunds] : List ProgramError) →
      e ≠ .panicked → X e m := fun e h h' => hX e (failedCheck_of_ne h h')
  unfold resolveRoyalty
  by_cases hmode : mode = royaltyNone
  · rw [if_pos hmode]
    exact hQ _ (.inl ⟨hmode,rfl⟩) fun hs => by rw [hs] at hmode; cases hmode
  rw [if_neg hmode]
  simp only [wpe_bind, wpe_unwrap]
  refine ⟨fun mdAcct hmd => wpe_verifyMetadataPda _ _ (fun hmeta => ?_) hX,
    fun _ => hx _ (by decide) (by decide)⟩
  simp only [wpe_bind, wpe_unwrap, wpe_dataOf, wpe_failIf]
  refine ⟨fun p hp => ⟨fun hz => ⟨fun hsum => ⟨fun hm => ⟨fun hpct => ⟨fun hlen => ?_,?_⟩,?_⟩,?_⟩,
    ?_⟩,?_⟩,?_⟩
  rotate_left
  all_goals first | exact fun _ => hx _ (by decide) (by decide) | skip
  have hm' : mode = royaltyMaker ∨ mode = royaltyTaker ∨ mode = royaltySplit := by tauto
  have hloop := wpe_forEach (X := X)
    (fun left m' => m' = m ∧ ∀ q ∈ atas.zip p.2, q ∈ left ∨
    BelongsTo m.ledger q.1.key wantMint.key q.2.1)
    (fun q : AccountInfo × Pubkey × UInt8 => requireTokenAccount q.1 wantMint.key q.2.1) ?_
    (atas.zip p.2) m ⟨rfl,fun q hq => .inl hq⟩
  · refine wpe_mono hloop ?_ (fun _ _ h => h)
    rintro _ m' ⟨rfl,hall⟩
    refine hQ _ (.inr ⟨hmode,mdAcct,p.1,hmd,?_⟩) fun hs => ?_
    · exact
        { metadata := hmeta
          parsed := hp
          positive := fun h => hz (.inl h)
          creators := fun h => hz (.inr h)
          shares := not_not.mp hsum
          royalty := rfl
          stance := hm'
          makerShare := rfl
          count := not_not.mp hlen
          owned := fun q hq => (hall q hq).resolve_left (by simp) }
    · by_contra hgt
      exact hpct ⟨hs,by omega⟩
  · rintro q left m' ⟨rfl,hall⟩
    refine wpe_requireTokenAccount _ _ _ (fun hb => ⟨rfl,fun r hr => ?_⟩)
      (hx _ (by decide) (by decide))
    cases hall r hr with
    | inl hmem =>
      cases List.mem_cons.mp hmem with
      | inl he => exact .inr (he ▸ hb)
      | inr hmem => exact .inl hmem
    | inr hr => exact .inr hr

/-! ## The transfers -/

theorem sent_feeActs (tokenProg source mint feeAta authority : Pubkey) (fee : ℕ) (dec : UInt8)
    (seeds : Option (List Bytes)) :
    sent source (feeActs tokenProg source mint feeAta authority fee dec seeds) = fee := by
  unfold feeActs
  split
  · simp [sent, Act.sends, transferAct]
  · simp only [sent, List.map_nil, List.sum_nil]
    omega

theorem sent_royaltyActs (tokenProg source mint authority : Pubkey) (dec : UInt8)
    (parts : List (AccountInfo × ℕ)) :
    sent source (royaltyActs tokenProg source mint authority dec parts) =
      (parts.map Prod.snd).sum := by
  induction parts with
  | nil => rfl
  | cons q qs ih =>
    have hq : sent source (if 0 < q.2 then
        [transferAct tokenProg source mint q.1.key authority q.2 dec none] else []) = q.2 := by
      split
      · simp [sent, Act.sends, transferAct]
      · simp only [sent, List.map_nil, List.sum_nil]
        omega
    rw [royaltyActs, List.flatMap_cons, sent_append, hq]
    exact congrArg (q.2+·) ih

/-- The parts of a royalty: each creator has an account of its own and the floor
of its share, the last one the rest. -/
structure SplitParts (s : Ledger) (wantMint : Pubkey) (atas : List AccountInfo)
    (creators : List (Pubkey × UInt8)) (royalty : ℕ) (parts : List ℕ) : Prop where
  count : parts.length = creators.length
  accounts : creators ≠ [] → atas.length = creators.length
  total : parts.sum = royalty
  floors : ∀ i c, i+1 < creators.length → creators[i]? = some c →
    parts[i]? = some (royalty*c.2.toNat/100)
  owned : ∀ (i : ℕ) (a : AccountInfo) (c : Pubkey × UInt8), atas[i]? = some a →
    creators[i]? = some c → BelongsTo s a.key wantMint c.1

def wantActs (k : PriceKeys) (want fee makerShare : ℕ) (dec : UInt8) (atas : List AccountInfo)
    (parts : List ℕ) : List Act :=
  feeActs k.tokenProg k.takerWant k.wantMint k.feeAta k.taker fee dec none ++
    [transferAct k.tokenProg k.takerWant k.wantMint k.makerWant k.taker (want-fee-makerShare) dec
      none] ++
    royaltyActs k.tokenProg k.takerWant k.wantMint k.taker dec (atas.zip parts)

theorem SplitParts.zip_sum {s : Ledger} {wantMint : Pubkey} {atas : List AccountInfo}
    {creators : List (Pubkey × UInt8)} {royalty : ℕ} {parts : List ℕ}
    (h : SplitParts s wantMint atas creators royalty parts) :
    ((atas.zip parts).map Prod.snd).sum = royalty := by
  have hc := h.count
  by_cases hn : creators = []
  · rw [hn, List.length_nil, List.length_eq_zero_iff] at hc
    rw [← h.total, hc, List.zip_nil_right, List.map_nil]
  · rw [List.map_snd_zip (by rw [hc, h.accounts hn]), h.total]

/-- The transfers out of the taker's account come to the price and the taker's
part of the royalty. -/
theorem sent_wantActs {s : Ledger} (k : PriceKeys) {want fee royalty makerShare : ℕ} (dec : UInt8)
    {atas : List AccountInfo} {creators : List (Pubkey × UInt8)} {parts : List ℕ}
    (hc : fee+makerShare ≤ want) (hs : makerShare ≤ royalty)
    (h : SplitParts s k.wantMint atas creators royalty parts) :
    sent k.takerWant (wantActs k want fee makerShare dec atas parts) =
      want+(royalty-makerShare) := by
  have hone : sent k.takerWant [transferAct k.tokenProg k.takerWant k.wantMint k.makerWant k.taker
      (want-fee-makerShare) dec none] = want-fee-makerShare := by
    simp [sent, Act.sends, transferAct]
  rw [wantActs, sent_append, sent_append, sent_feeActs, hone, sent_royaltyActs, h.zip_sum]
  omega

structure PaysWant (E : Env) (m m' : Machine) (k : PriceKeys) (want maxWant : ℕ)
    (dec shardSeed mode pct : UInt8) (metadata : Option AccountInfo) (atas : List AccountInfo)
    (fee royalty makerShare : ℕ) (creators : List (Pubkey × UInt8)) (parts : List ℕ) : Prop where
  config : IsConfig E m.ledger k.config
  feeFloor : fee = want*(feePolicy (m.ledger k.config).data).feeBps/10000
  dest : 0 < fee → IsFeeDest E m.ledger k.feeAta k.wantMint
    (feePolicy (m.ledger k.config).data).feeWallet (feePolicy (m.ledger k.config).data).feeShards
    shardSeed
  plain : mode = royaltyNone → royalty = 0 ∧ makerShare = 0 ∧ creators = []
  terms : mode ≠ royaltyNone → ∃ md bps, metadata = some md ∧
    IsMetadata E m.ledger md.key k.giveMint ∧
    parseTmRoyalty (m.ledger md.key).data = some (bps,creators) ∧ royalty = want*bps/10000 ∧
    (mode = royaltyMaker ∧ makerShare = royalty ∨ mode = royaltyTaker ∧ makerShare = 0 ∨
      mode = royaltySplit ∧ pct.toNat ≤ 100 ∧ makerShare = royalty*pct.toNat/100)
  split : SplitParts m.ledger k.wantMint atas creators royalty parts
  covers : fee+makerShare ≤ want
  cap : want+(royalty-makerShare) ≤ maxWant
  did : Did E (wantActs k want fee makerShare dec atas parts) m m'
  total : sent k.takerWant (wantActs k want fee makerShare dec atas parts) =
    want+(royalty-makerShare)

theorem payFee_wpe {tokenProg source mint feeAta authority : AccountInfo} (cfg : FeePolicy)
    (fee : ℕ) (dec shardSeed : UInt8) (seeds : Option (List Bytes)) {Q : Unit → Machine → Prop}
    (hQ : ∀ m₁, Did E (feeActs tokenProg.key source.key mint.key feeAta.key authority.key fee dec
      seeds) m m₁ → (0 < fee → IsFeeDest E m.ledger feeAta.key mint.key cfg.feeWallet cfg.feeShards
      shardSeed) → Q () m₁)
    (hX : ∀ e, FailedCheck E.host (feeVaultSeeds mint.key (shardSeed % cfg.feeShards)) E.programId
      e → (e = .panicked → cfg.feeShards ≠ 0) → X e m)
    (hR : ∀ m₁, X .refused m₁) :
    wpe (payFee E cfg tokenProg source mint feeAta authority fee dec shardSeed seeds) Q X m := by
  unfold payFee
  by_cases h : 0 < fee
  · rw [if_pos h, wpe_bind]
    refine wpe_verifyFeeDest _ _ _ _ _ (fun hd => ?_) hX
    rw [tokenTransfer, wpe_perform]
    refine ⟨fun s hs => hQ _ ?_ fun _ => hd,fun _ => hR _⟩
    rw [feeActs, if_pos h]
    exact ⟨s,hs,rfl⟩
  · rw [if_neg h, wpe_pure]
    refine hQ m ?_ fun h' => (h h').elim
    rw [feeActs, if_neg h]
    rfl

theorem royalty_wpe {tokenProg source mint authority : AccountInfo} (dec : UInt8)
    (parts : List (AccountInfo × ℕ)) {Q : PUnit → Machine → Prop}
    (hQ : ∀ m₁, Did E (royaltyActs tokenProg.key source.key mint.key authority.key dec parts) m m₁ →
      Q ⟨⟩ m₁) (hR : ∀ m₁, X .refused m₁) :
    wpe (forEach parts (fun p => do
      if 0 < p.2 then tokenTransfer E tokenProg source mint p.1 authority p.2 dec none)) Q X m := by
  induction parts generalizing m with
  | nil => exact hQ m rfl
  | cons p ps ih =>
    rw [forEach, wpe_bind, wpe_ite]
    refine ⟨fun hp => ?_,fun hp => ?_⟩
    · rw [tokenTransfer, wpe_perform]
      refine ⟨fun s hs => ih fun m₁ h₁ => hQ m₁ ?_,fun _ => hR _⟩
      rw [royaltyActs, List.flatMap_cons, if_pos hp]
      exact ⟨s,hs,h₁⟩
    · rw [wpe_pure]
      refine ih fun m₁ h₁ => hQ m₁ ?_
      rw [royaltyActs, List.flatMap_cons, if_neg hp]
      exact h₁

theorem royaltyActs_nothing (tokenProg source mint authority : Pubkey) (dec : UInt8)
    (parts : List (AccountInfo × ℕ)) (h : (parts.map Prod.snd).sum = 0) :
    royaltyActs tokenProg source mint authority dec parts = [] := by
  induction parts with
  | nil => rfl
  | cons q qs ih =>
    rw [List.map_cons, List.sum_cons] at h
    rw [royaltyActs, List.flatMap_cons, if_neg (by omega), List.nil_append]
    exact ih (by omega)

/-- The split of a resolved royalty exists, and its parts are as stated. -/
theorem Resolved.split {s : Ledger} {giveMint wantMint md : Pubkey} {want bps : ℕ}
    {mode pct : UInt8} {atas : List AccountInfo} {t : RoyaltyTerms}
    (h : Resolved E s giveMint wantMint md want bps mode pct atas t) (hr : t.royalty ≤ u64Max) :
    ∃ splits parts, splitByShare t.royalty (t.creators.map Prod.snd) = some splits ∧
      atas.zip splits = atas.zip parts ∧ SplitParts s wantMint atas t.creators t.royalty parts := by
  have hlen : (t.creators.map Prod.snd).length = t.creators.length := List.length_map _
  have hpos := List.length_pos_of_ne_nil h.creators
  obtain ⟨-,hmax,-⟩ := parseTmRoyalty_bounds h.parsed
  have hsum : ((t.creators.map Prod.snd).map UInt8.toNat).sum = 100 := by
    rw [List.map_map]
    exact h.shares
  obtain ⟨splits,hs,hl,htot,hfl⟩ := splitByShare_floors t.royalty _ hr (by omega) (by omega) hsum
  rw [hlen] at htot hfl
  refine ⟨splits,splits.take t.creators.length,hs,?_,?_⟩
  · have hz : (atas.zip splits).length ≤ t.creators.length := by
      rw [List.length_zip, h.count]
      exact Nat.min_le_left _ _
    calc atas.zip splits = (atas.zip splits).take t.creators.length :=
          (List.take_of_length_le hz).symm
      _ = (atas.take t.creators.length).zip (splits.take t.creators.length) := List.take_zipWith
      _ = atas.zip (splits.take t.creators.length) := by
          rw [List.take_of_length_le (le_of_eq h.count)]
  · exact
      { count := by rw [List.length_take]; omega
        accounts := fun _ => h.count
        total := htot
        floors := by
          intro i c hi hc
          rw [List.getElem?_take_of_lt (by omega)]
          apply hfl i c.2 (by omega)
          rw [List.getElem?_map, hc]
          rfl
        owned := by
          intro i a c ha hc
          refine h.owned (a,c) (List.mem_iff_getElem?.mpr ⟨i,?_⟩)
          exact List.getElem?_zip_eq_some.mpr ⟨ha,hc⟩ }

/-- The terms of a royalty in exact arithmetic, and its parts. -/
theorem Royalty.exact {s : Ledger} {giveMint wantMint : Pubkey} {want : ℕ} {mode pct : UInt8}
    {metadata : Option AccountInfo} {atas : List AccountInfo} {t : RoyaltyTerms}
    (h : Royalty E s giveMint wantMint want mode pct metadata atas t) (hw : want ≤ u64Max)
    (hpct : mode = royaltySplit → pct.toNat ≤ 100) :
    t.makerShare ≤ t.royalty ∧ t.royalty ≤ want ∧
    (mode = royaltyNone → t.royalty = 0 ∧ t.makerShare = 0 ∧ t.creators = []) ∧
    (mode ≠ royaltyNone → ∃ md bps, metadata = some md ∧ IsMetadata E s md.key giveMint ∧
      parseTmRoyalty (s md.key).data = some (bps,t.creators) ∧ t.royalty = want*bps/10000 ∧
      (mode = royaltyMaker ∧ t.makerShare = t.royalty ∨ mode = royaltyTaker ∧ t.makerShare = 0 ∨
        mode = royaltySplit ∧ pct.toNat ≤ 100 ∧ t.makerShare = t.royalty*pct.toNat/100)) ∧
    ∃ parts, SplitParts s wantMint atas t.creators t.royalty parts ∧
      (0 < t.royalty → ∃ splits, splitByShare t.royalty (t.creators.map Prod.snd) = some splits ∧
        atas.zip splits = atas.zip parts) := by
  cases h with
  | inl h =>
    obtain ⟨hn,rfl⟩ := h
    refine ⟨le_rfl,Nat.zero_le _,fun _ => ⟨rfl,rfl,rfl⟩,fun hm => (hm hn).elim,[],?_,?_⟩
    · exact ⟨rfl,fun h => (h rfl).elim,rfl,by simp,by simp⟩
    · exact fun h => (Nat.lt_irrefl 0 h).elim
  | inr h =>
    obtain ⟨hn,md,bps,hmd,hr⟩ := h
    obtain ⟨hb,-,-⟩ := parseTmRoyalty_bounds hr.parsed
    have hroy : t.royalty = want*bps/10000 := by rw [hr.royalty, bpsOf_floor hw hb]
    have hle : t.royalty ≤ want := by
      rw [hroy]
      exact Nat.div_le_of_le_mul (by rw [Nat.mul_comm]; exact Nat.mul_le_mul_right _ hb)
    have hsh : mode = royaltyMaker ∧ t.makerShare = t.royalty ∨
        mode = royaltyTaker ∧ t.makerShare = 0 ∨
        mode = royaltySplit ∧ pct.toNat ≤ 100 ∧ t.makerShare = t.royalty*pct.toNat/100 := by
      have hms := hr.makerShare
      rcases hr.stance with hm | hm | hm
      · rw [if_pos hm] at hms
        exact .inl ⟨hm,hms⟩
      · rw [hm] at hms
        exact .inr (.inl ⟨hm,hms⟩)
      · have hp := hpct hm
        have hdiv : t.royalty*pct.toNat/100 ≤ t.royalty :=
          Nat.div_le_of_le_mul (by rw [Nat.mul_comm]; exact Nat.mul_le_mul_right _ hp)
        have hlt : t.royalty*pct.toNat/100 < 2^64 := by
          unfold u64Max at hw
          omega
        rw [hm] at hms
        exact .inr (.inr ⟨hm,hp,hms.trans (Nat.mod_eq_of_lt hlt)⟩)
    obtain ⟨splits,parts,hs,hz,hp⟩ := hr.split (hle.trans hw)
    refine ⟨?_,hle,fun h => (hn h).elim,fun _ => ⟨md,bps,hmd,hr.metadata,hr.parsed,hroy,hsh⟩,
      parts,hp,
      fun _ => ⟨splits,hs,hz⟩⟩
    rcases hsh with ⟨-,h⟩ | ⟨-,h⟩ | ⟨-,hp,h⟩
    · exact le_of_eq h
    · rw [h]
      exact Nat.zero_le _
    · rw [h]
      exact Nat.div_le_of_le_mul (by rw [Nat.mul_comm]; exact Nat.mul_le_mul_right _ hp)

section
variable {config tokenProg takerWant wantMint feeAta makerWant taker giveMint : AccountInfo}

/-- How a payment fails: of its own, before the first transfer, and never by a
panic but where a seed list has no address. -/
structure PaymentFails (E : Env) (wantMint giveMint : Pubkey) (m : Machine) (e : ProgramError)
    (m' : Machine) : Prop where
  early : e ≠ .refused → m' = m
  panics : e = .panicked → E.host.findProgramAddress configSeeds E.programId = none ∨
    E.host.findProgramAddress (metadataSeeds giveMint) tokenMetadataId = none ∨
    ∃ idx, E.host.findProgramAddress (feeVaultSeeds wantMint idx) E.programId = none

theorem payWantAndRoyalty_wpe (want maxWant : ℕ) (dec shardSeed mode pct : UInt8)
    (metadata : Option AccountInfo) (atas : List AccountInfo) (hw : want ≤ u64Max)
    (hb : (feePolicy (m.ledger config.key).data).feeBps ≤ bpsDenom) :
    wpe (payWantAndRoyalty E config tokenProg takerWant wantMint feeAta makerWant taker want maxWant
        dec shardSeed mode pct giveMint metadata atas)
      (fun _ m' => ∃ fee royalty makerShare creators parts,
        PaysWant E m m' ⟨config.key,tokenProg.key, takerWant.key,wantMint.key,feeAta.key,
        makerWant.key,taker.key,giveMint.key⟩ want maxWant dec
        shardSeed mode pct metadata atas fee royalty makerShare creators parts)
      (PaymentFails E wantMint.key giveMint.key m) m := by
  have hown : ∀ e, e ≠ .panicked → PaymentFails E wantMint.key giveMint.key m e m :=
    fun e h => ⟨fun _ => rfl,fun he => (h he).elim⟩
  have hlate : ∀ m₁, PaymentFails E wantMint.key giveMint.key m .refused m₁ :=
    fun m₁ => ⟨fun h => (h rfl).elim,fun h => by cases h⟩
  unfold payWantAndRoyalty
  rw [wpe_bind]
  refine wpe_readConfig _ (fun hcfg => ?_) fun e he => ⟨fun _ => rfl,fun h => .inl (he.2 h)⟩
  rw [wpe_bind]
  refine wpe_resolveRoyalty _ _ _ _ _ (fun t ht hpct => ?_)
    fun e he => ⟨fun _ => rfl,fun h => .inr (.inl (he.2 h))⟩
  obtain ⟨hsh,hroy,hplain,hterms,parts,hparts,hsplit⟩ := ht.exact hw hpct
  simp only [wpe_bind, wpe_checkedSub, wpe_failIf]
  refine ⟨fun _ => ⟨fun _ => ⟨fun hcap => ⟨fun hfee => ⟨fun hnet => ?_,?_⟩,?_⟩,?_⟩,?_⟩,?_⟩
  rotate_left
  all_goals first | exact fun _ => hown _ (by decide) | skip
  · exact fun h => absurd h (by omega)
  have hfloor : bpsOf want (feePolicy (m.ledger config.key).data).feeBps =
      want*(feePolicy (m.ledger config.key).data).feeBps/10000 := bpsOf_floor hw hb
  rw [hfloor] at hfee hnet ⊢
  refine payFee_wpe _ _ _ _ _ (fun m₁ h₁ hdest => ?_)
    (fun e he _ => ⟨fun _ => rfl,fun h => .inr (.inr ⟨_,he.2 h⟩)⟩) hlate
  rw [wpe_bind, tokenTransfer, wpe_perform]
  refine ⟨fun s hs => ?_,fun _ => hlate _⟩
  have hpaid : ∀ m', Did E (royaltyActs tokenProg.key takerWant.key wantMint.key taker.key dec
      (atas.zip parts)) (m₁.next (transferAct tokenProg.key takerWant.key wantMint.key makerWant.key
        taker.key (want-want*(feePolicy (m.ledger config.key).data).feeBps/10000-t.makerShare) dec
        none) s) m' → PaysWant E m m' ⟨config.key,tokenProg.key,takerWant.key,
        wantMint.key,feeAta.key,makerWant.key,taker.key,giveMint.key⟩ want maxWant dec
        shardSeed mode
        pct metadata atas (want*(feePolicy (m.ledger config.key).data).feeBps/10000) t.royalty
        t.makerShare t.creators parts := by
    intro m' hd
    exact
      { config := hcfg
        feeFloor := rfl
        dest := hdest
        plain := hplain
        terms := hterms
        split := hparts
        covers := by omega
        cap := by omega
        did := by
          rw [wantActs, List.append_assoc]
          exact (did_append _ _ m m').mpr ⟨m₁,h₁,s,hs,hd⟩
        total := sent_wantActs _ dec (by omega) hsh hparts }
  rw [wpe_ite]
  refine ⟨fun hpos => ?_,fun hz => ?_⟩
  · obtain ⟨splits,hs',hzip⟩ := hsplit hpos
    rw [wpe_bind, wpe_unwrap]
    refine ⟨fun splits' hs'' => ?_,fun hn => by rw [hs'] at hn; cases hn⟩
    rw [hs'] at hs''
    cases hs''
    rw [hzip]
    exact royalty_wpe dec _ (fun m' hd => ⟨_,_,_,_,_,hpaid m' hd⟩) hlate
  · refine ⟨_,_,_,_,_,hpaid _ ?_⟩
    rw [royaltyActs_nothing _ _ _ _ _ _ (by rw [hparts.zip_sum]; omega)]
    rfl

def KnownStance (mode pct : UInt8) : Prop :=
  mode ≠ royaltyNone ∧ (mode = royaltyMaker ∨ mode = royaltyTaker ∨ mode = royaltySplit) ∧
    (mode = royaltySplit → pct.toNat ≤ 100)

/-- Stances that pass the checks differ in the maker's share only. -/
theorem resolveRoyalty_congr (want : ℕ) {mode mode' pct pct' : UInt8} (md : Option AccountInfo)
    (atas : List AccountInfo) (h : KnownStance mode pct) (h' : KnownStance mode' pct')
    (hs : ∀ bps, (if mode = royaltyMaker then bpsOf want bps else if mode = royaltyTaker then 0
        else bpsOf want bps*pct.toNat/100 % 2^64) =
      if mode' = royaltyMaker then bpsOf want bps else if mode' = royaltyTaker then 0
        else bpsOf want bps*pct'.toNat/100 % 2^64) :
    resolveRoyalty E wantMint want mode pct giveMint md atas =
      resolveRoyalty E wantMint want mode' pct' giveMint md atas := by
  have hpass : ∀ mode pct, KnownStance mode pct →
      (failIf (mode ≠ royaltyMaker ∧ mode ≠ royaltyTaker ∧ mode ≠ royaltySplit) .invalidArgument :
        Exec Unit) = pure () ∧
      (failIf (mode = royaltySplit ∧ 100 < pct.toNat) .invalidArgument : Exec Unit) = pure () := by
    intro mode pct h
    constructor
    · exact if_neg fun hn => by
        rcases h.2.1 with he | he | he
        · exact hn.1 he
        · exact hn.2.1 he
        · exact hn.2.2 he
    · exact if_neg fun hn => absurd (h.2.2 hn.1) (by omega)
  unfold resolveRoyalty
  rw [if_neg h.1, if_neg h'.1]
  simp only [hpass mode pct h, hpass mode' pct' h', hs]

/-- A split that leaves all of the royalty to the maker, or none of it. -/
theorem resolveRoyalty_split (want : ℕ) (pct : UInt8) (md : Option AccountInfo)
    (atas : List AccountInfo) :
    resolveRoyalty E wantMint want royaltySplit 100 giveMint md atas =
      resolveRoyalty E wantMint want royaltyMaker pct giveMint md atas ∧
    resolveRoyalty E wantMint want royaltySplit 0 giveMint md atas =
      resolveRoyalty E wantMint want royaltyTaker pct giveMint md atas := by
  have hm : KnownStance royaltyMaker pct := ⟨by decide,.inl rfl,fun h => by cases h⟩
  have ht : KnownStance royaltyTaker pct := ⟨by decide,.inr (.inl rfl),fun h => by cases h⟩
  constructor
  · apply resolveRoyalty_congr want md atas ⟨by decide,.inr (.inr rfl),fun _ => by decide⟩ hm
    intro bps
    show bpsOf want bps*100/100 % 2^64 = bpsOf want bps
    rw [Nat.mul_div_cancel _ (by decide)]
    exact Nat.mod_mod _ _
  · apply resolveRoyalty_congr want md atas ⟨by decide,.inr (.inr rfl),fun _ => by decide⟩ ht
    intro bps
    show bpsOf want bps*0/100 % 2^64 = 0
    rw [Nat.mul_zero, Nat.zero_div, Nat.zero_mod]

/-- Money is conserved and capped, splits of 100 and 0 percent are the two other
stances, and the checks come before the first transfer. -/
theorem payWantAndRoyalty_conserves (m : Machine) (want maxWant : ℕ)
    (dec shardSeed mode pct : UInt8) (metadata : Option AccountInfo) (atas : List AccountInfo)
    (hw : want ≤ u64Max) (hb : (feePolicy (m.ledger config.key).data).feeBps ≤ bpsDenom) :
    (∀ m', payWantAndRoyalty E config tokenProg takerWant wantMint feeAta makerWant taker
      want maxWant
        dec shardSeed mode pct giveMint metadata atas m = .ok () m' →
      ∃ fee royalty makerShare creators parts, PaysWant E m m' ⟨config.key,tokenProg.key,
        takerWant.key,wantMint.key,feeAta.key,makerWant.key,taker.key,giveMint.key⟩ want maxWant dec
        shardSeed mode pct metadata atas fee royalty makerShare creators parts) ∧
    (∀ e m', payWantAndRoyalty E config tokenProg takerWant wantMint feeAta makerWant taker
      want maxWant
        dec shardSeed mode pct giveMint metadata atas m = .error e m' →
      PaymentFails E wantMint.key giveMint.key m e m') ∧
    payWantAndRoyalty E config tokenProg takerWant wantMint feeAta makerWant taker want maxWant dec
        shardSeed royaltySplit 100 giveMint metadata atas =
      payWantAndRoyalty E config tokenProg takerWant wantMint feeAta makerWant taker want
        maxWant dec shardSeed royaltyMaker pct giveMint metadata atas ∧
    payWantAndRoyalty E config tokenProg takerWant wantMint feeAta makerWant taker want maxWant dec
        shardSeed royaltySplit 0 giveMint metadata atas =
      payWantAndRoyalty E config tokenProg takerWant wantMint feeAta makerWant taker want
        maxWant dec shardSeed royaltyTaker pct giveMint metadata atas := by
  refine ⟨fun m' hx => wpe_ok (payWantAndRoyalty_wpe want maxWant _ _ _ _ _ _ hw hb) hx,
    fun e m' hx => wpe_error (payWantAndRoyalty_wpe want maxWant _ _ _ _ _ _ hw hb) hx,?_,?_⟩
  · unfold payWantAndRoyalty
    rw [(resolveRoyalty_split want pct metadata atas).1]
  · unfold payWantAndRoyalty
    rw [(resolveRoyalty_split want pct metadata atas).2]

end

def stallPayment : Exec Unit :=
  payWantAndRoyalty (fillListingCall 100 300 [metadataKey,artistB]).env ⟨configKey,false,true⟩
    ⟨splTokenId,false,true⟩ ⟨takerB,false,true⟩ ⟨mintB,false,true⟩ ⟨feeB,false,true⟩
    ⟨makerB,false,true⟩ ⟨taker,true,true⟩ 200 300 0 0 royaltySplit 50 ⟨mintA,false,true⟩
    (some ⟨metadataKey,false,true⟩) [⟨artistB,false,true⟩]

theorem payWantAndRoyalty_conserves_stall : ∃ m' fee royalty makerShare creators parts,
    stallPayment ⟨stallStart,[]⟩ = .ok () m' ∧
    PaysWant (fillListingCall 100 300 [metadataKey,artistB]).env ⟨stallStart,[]⟩ m' ⟨configKey,
      splTokenId,takerB,mintB,feeB,makerB,taker,mintA⟩ 200 300 0 0 royaltySplit 50
      (some ⟨metadataKey,false,true⟩) [⟨artistB,false,true⟩] fee royalty makerShare creators
        parts := by
  have h : (finished stallPayment ⟨stallStart,[]⟩).isSome = true := by decide +kernel
  obtain ⟨m',hm⟩ := Option.isSome_iff_exists.mp h
  have hx := finished_ok hm
  obtain ⟨fee,royalty,makerShare,creators,parts,hp⟩ :=
    (payWantAndRoyalty_conserves _ _ _ _ _ _ _ _ _ (by decide) (by decide +kernel)).1 m' hx
  exact ⟨m',fee,royalty,makerShare,creators,parts,hx,hp⟩

end Xete.Swap
