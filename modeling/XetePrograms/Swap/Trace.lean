import XetePrograms.Solana.Frame
import XetePrograms.Swap.Process

/-!
# The acts of the helpers

What a helper that succeeds has done, as the list of its acts in order.
-/

set_option autoImplicit false

namespace Xete.Swap
open Xete.Octets Xete.Weakest Xete.Chain Xete.Token Xete.Runtime Xete.Rules

def transferAct (tokenProg source mint dest authority : Pubkey) (n : ℕ) (dec : UInt8)
    (seeds : Option (List Bytes)) : Act :=
  .invoke (.transferChecked tokenProg source mint dest authority n dec) seeds

def closeAct (tokenProg acct dest authority : Pubkey) (seeds : List Bytes) : Act :=
  .invoke (.closeAccount tokenProg acct dest authority) (some seeds)

def createAct (E : Env) (payer acct : Pubkey) (space : ℕ) (owner : Pubkey) (seeds : List Bytes) :
    Act :=
  .invoke (.createAccount payer acct (E.host.minimumBalance space) space owner) (some seeds)

def initAct (tokenProg acct mint owner : Pubkey) : Act :=
  .invoke (.initializeAccount3 tokenProg acct mint owner) none

def Act.Closes (k : Pubkey) : Act → Prop
  | .close a _ => a = k
  | _ => False

instance (k : Pubkey) (a : Act) : Decidable (Act.Closes k a) := by
  cases a <;> unfold Act.Closes <;> infer_instance

def SlotIs (E : Env) (i : ℕ) (k : Pubkey) : Prop := E.accounts[i]?.map AccountInfo.key = some k

variable {E : Env} {m m' : Machine}

theorem SlotIs.of_getElem {i : ℕ} {a : AccountInfo} (h : E.accounts[i]? = some a) :
    SlotIs E i a.key := by
  rw [SlotIs, h]
  rfl

theorem SlotIs.key {i : ℕ} {k : Pubkey} (hk : SlotIs E i k) {a : AccountInfo}
    (h : E.accounts[i]? = some a) : a.key = k := by
  rw [SlotIs, h] at hk
  exact Option.some_inj.mp hk

theorem SlotIs.getElem {i : ℕ} {k : Pubkey} (h : SlotIs E i k) :
    ∃ a, E.accounts[i]? = some a ∧ a.key = k :=
  Option.map_eq_some_iff.mp h

theorem SlotIs.inj {i : ℕ} {j k : Pubkey} (hj : SlotIs E i j) (hk : SlotIs E i k) : j = k :=
  Option.some_inj.mp (hj.symm.trans hk)

def Act.sends (source : Pubkey) : Act → ℕ
  | .invoke (.transferChecked _ src _ _ _ n _) _ => if src = source then n else 0
  | _ => 0

def sent (source : Pubkey) (as : List Act) : ℕ := (as.map (Act.sends source)).sum

@[simp] theorem sent_append (source : Pubkey) (as bs : List Act) :
    sent source (as ++ bs) = sent source as+sent source bs := by
  simp [sent]

def Stores (E : Env) (k : Pubkey) (b : Bytes) (m : Machine) : Prop :=
  (m.ledger k).owner = E.programId ∧ (m.ledger k).data = b

theorem Stores.did {k : Pubkey} {b : Bytes} {as : List Act} (hw : Wellformed E)
    (hf : Confined E.host) (h : Stores E k b m) (hd : Did E as m m') (ht : ¬TouchedIn as k) :
    Stores E k b m' := by
  obtain ⟨ho,hb,-⟩ := (ran_frame hw hf as hd.ran).owned k h.1 ht
  exact ⟨ho,hb.trans h.2⟩

theorem created_stores {payer acct : Pubkey} {space : ℕ} {seeds : List Bytes}
    (hs : SystemRules E.host)
    (h : Did E [createAct E payer acct space E.programId seeds] m m') :
    Stores E acct (zeros space) m' ∧ Vacant m.ledger acct := by
  obtain ⟨s,he,rfl⟩ := h
  simp only [createAct, Act.effect] at he
  split at he
  · obtain ⟨hv,-,ha,-⟩ := hs.create _ _ _ _ _ _ _ he
    rw [Stores, next_ledger, ha]
    exact ⟨⟨rfl,rfl⟩,hv⟩
  · cases he

theorem did_perform (a : Act) :
    wp (perform E a) (fun _ m' => Did E [a] m m') (fun _ => True) m := by
  rw [wp_perform]
  exact ⟨fun s hs => ⟨s,hs,rfl⟩,fun _ => trivial⟩

theorem did_close (account dest : AccountInfo) : wp (close E account dest)
    (fun _ m' => Did E [.close account.key dest.key] m m') (fun _ => True) m := by
  rw [wp_close]
  exact ⟨fun s hs => ⟨s,hs,rfl⟩,fun _ => trivial,fun _ _ => trivial⟩

variable {config tokenProg source mint dest authority feeAta makerWant ownerCoins : AccountInfo}

def feeActs (tokenProg source mint feeAta authority : Pubkey) (fee : ℕ) (dec : UInt8)
    (seeds : Option (List Bytes)) : List Act :=
  if 0 < fee then [transferAct tokenProg source mint feeAta authority fee dec seeds] else []

theorem touchedIn_feeActs (tokenProg source mint feeAta authority : Pubkey) (fee : ℕ) (dec : UInt8)
    (seeds : Option (List Bytes)) (k : Pubkey) :
    ¬TouchedIn (feeActs tokenProg source mint feeAta authority fee dec seeds) k := by
  unfold feeActs
  split <;> simp [transferAct]

theorem payFee_did (cfg : FeePolicy) (fee : ℕ) (dec shardSeed : UInt8)
    (seeds : Option (List Bytes)) :
    wp (payFee E cfg tokenProg source mint feeAta authority fee dec shardSeed seeds)
      (fun _ m' => Did E (feeActs tokenProg.key source.key mint.key feeAta.key authority.key fee dec
        seeds) m m' ∧ (0 < fee → IsFeeDest E m.ledger feeAta.key mint.key cfg.feeWallet
          cfg.feeShards
        shardSeed)) (fun _ => True) m := by
  unfold payFee feeActs
  split
  · rename_i h
    simp only [wp_bind, wp_verifyFeeDest, implies_true, and_true]
    intro hd
    exact wp_mono (did_perform _) (fun _ m' hm => ⟨hm,fun _ => hd⟩) (fun _ _ => trivial)
  · rename_i h
    exact ⟨rfl,fun hf => (h hf).elim⟩

def priceActs (tokenProg source mint feeAta dest authority : Pubkey) (price fee : ℕ) (dec : UInt8)
    (seeds : Option (List Bytes)) : List Act :=
  feeActs tokenProg source mint feeAta authority fee dec seeds ++
    [transferAct tokenProg source mint dest authority (price-fee) dec seeds]

theorem touchedIn_priceActs (tokenProg source mint feeAta dest authority : Pubkey) (price fee : ℕ)
    (dec : UInt8) (seeds : Option (List Bytes)) (k : Pubkey) :
    ¬TouchedIn (priceActs tokenProg source mint feeAta dest authority price fee dec seeds) k := by
  simp [priceActs, touchedIn_feeActs, transferAct]

def feeAt (s : Ledger) (config : Pubkey) (price : ℕ) : ℕ :=
  bpsOf price (feePolicy (s config).data).feeBps

structure FeePaid (E : Env) (s : Ledger) (config feeAta mint : Pubkey) (price : ℕ)
    (shardSeed : UInt8) : Prop where
  isConfig : IsConfig E s config
  le : feeAt s config price ≤ price
  dest : 0 < feeAt s config price → IsFeeDest E s feeAta mint
    (feePolicy (s config).data).feeWallet (feePolicy (s config).data).feeShards shardSeed

theorem wp_price_seq {β : Type} {Q : β → Machine → Prop} (cfg : FeePolicy) (price : ℕ)
    (dec shardSeed : UInt8) (seeds : Option (List Bytes)) (f : Unit → Exec β)
    (hk : ∀ m', Did E (priceActs tokenProg.key source.key mint.key feeAta.key dest.key authority.key
        price (bpsOf price cfg.feeBps) dec seeds) m m' →
      bpsOf price cfg.feeBps ≤ price →
      (0 < bpsOf price cfg.feeBps → IsFeeDest E m.ledger feeAta.key mint.key cfg.feeWallet
        cfg.feeShards shardSeed) → wp (f ()) Q (fun _ => True) m') :
    wp (payFee E cfg tokenProg source mint feeAta authority (bpsOf price cfg.feeBps) dec shardSeed
        seeds)
      (fun _ => wp (do
        let rest ← checkedSub price (bpsOf price cfg.feeBps) .panicked
        let u ← tokenTransfer E tokenProg source mint dest authority rest dec seeds
        f u) Q (fun _ => True))
      (fun _ => True) m := by
  refine wp_mono (payFee_did cfg _ dec shardSeed seeds) ?_ (fun _ _ => trivial)
  rintro _ m₁ ⟨h₁,hd⟩
  rw [wp_bind, wp_checkedSub]
  refine ⟨fun hle => ?_,fun _ => trivial⟩
  rw [wp_bind]
  refine wp_mono (did_perform _) ?_ (fun _ _ => trivial)
  rintro _ m' h₂
  exact hk m' ((did_append _ _ m m').mpr ⟨m₁,h₁,h₂⟩) hle hd

theorem wp_price {Q : Unit → Machine → Prop} (cfg : FeePolicy) (price : ℕ) (dec shardSeed : UInt8)
    (seeds : Option (List Bytes))
    (hk : ∀ m', Did E (priceActs tokenProg.key source.key mint.key feeAta.key dest.key authority.key
        price (bpsOf price cfg.feeBps) dec seeds) m m' →
      bpsOf price cfg.feeBps ≤ price →
      (0 < bpsOf price cfg.feeBps → IsFeeDest E m.ledger feeAta.key mint.key cfg.feeWallet
        cfg.feeShards shardSeed) → Q () m') :
    wp (payFee E cfg tokenProg source mint feeAta authority (bpsOf price cfg.feeBps) dec shardSeed
        seeds)
      (fun _ => wp (do
        let rest ← checkedSub price (bpsOf price cfg.feeBps) .panicked
        tokenTransfer E tokenProg source mint dest authority rest dec seeds) Q (fun _ => True))
      (fun _ => True) m := by
  have h := wp_price_seq cfg price dec shardSeed seeds pure hk
  simpa only [bind_pure] using h

theorem payWantLeg_did (price : ℕ) (dec shardSeed : UInt8) :
    wp (payWantLeg E config tokenProg source mint feeAta dest authority price dec shardSeed)
      (fun _ m' => Did E (priceActs tokenProg.key source.key mint.key feeAta.key dest.key
        authority.key price (feeAt m.ledger config.key price) dec none) m m' ∧
        FeePaid E m.ledger config.key feeAta.key mint.key price shardSeed) (fun _ => True) m := by
  rw [payWantLeg, wp_bind, wp_readConfig]
  refine ⟨fun hcfg => wp_seq (wp_price _ price dec shardSeed none ?_),fun _ => trivial⟩
  exact fun m' hd hle hf => ⟨hd,hcfg,hle,hf⟩

theorem payCoinsViaDelegate_did (seeds : List Bytes) (price : ℕ) (dec shardSeed : UInt8) :
    wp (payCoinsViaDelegate E config tokenProg source mint feeAta dest authority seeds price dec
      shardSeed)
      (fun _ m' => Did E (priceActs tokenProg.key source.key mint.key feeAta.key dest.key
        authority.key price (feeAt m.ledger config.key price) dec (some seeds)) m m' ∧
        FeePaid E m.ledger config.key feeAta.key mint.key price shardSeed) (fun _ => True) m := by
  rw [payCoinsViaDelegate, wp_bind, wp_readConfig]
  refine ⟨fun hcfg => wp_seq (wp_price _ price dec shardSeed (some seeds) ?_),fun _ => trivial⟩
  exact fun m' hd hle hf => ⟨hd,hcfg,hle,hf⟩

def delistActs (maker feeWallet : Pubkey) (fee : ℕ) : List Act :=
  if 0 < fee then [.invoke (.transferLamports maker feeWallet fee) none] else []

theorem payDelistFee_did (maker feeWallet : AccountInfo) :
    wp (payDelistFee E config maker feeWallet)
      (fun _ m' => Did E (delistActs maker.key feeWallet.key
        (feePolicy (m.ledger config.key).data).delistFee) m m') (fun _ => True) m := by
  simp only [payDelistFee, wp_bind, wp_readConfig, wp_ite, wp_failIf, wp_pure, implies_true,
    and_true, delistActs]
  refine fun _ => ⟨fun hf _ => ?_,fun hf => ?_⟩
  · rw [if_pos hf]
    exact did_perform _
  · rw [if_neg hf]
    rfl

def royaltyActs (tokenProg source mint authority : Pubkey) (dec : UInt8)
    (parts : List (AccountInfo × ℕ)) : List Act :=
  parts.flatMap fun p =>
    if 0 < p.2 then [transferAct tokenProg source mint p.1.key authority p.2 dec none] else []

theorem royalty_did (dec : UInt8) (parts : List (AccountInfo × ℕ)) :
    wp (forEach parts (fun p => do
      if 0 < p.2 then
        tokenTransfer E tokenProg source mint p.1 authority p.2 dec none))
      (fun _ m' => Did E (royaltyActs tokenProg.key source.key mint.key authority.key dec parts) m
        m')
      (fun _ => True) m := by
  induction parts generalizing m with
  | nil => exact rfl
  | cons p ps ih =>
    rw [wp_forEach_cons, wp_ite]
    refine ⟨fun hp => ?_,fun hp => ?_⟩
    · refine wp_mono (did_perform _) (fun _ m₁ h₁ => ?_) (fun _ _ => trivial)
      refine wp_mono ih (fun _ m' h₂ => ?_) (fun _ _ => trivial)
      simp only [royaltyActs, List.flatMap_cons, if_pos hp]
      exact (did_append _ _ m m').mpr ⟨m₁,h₁,h₂⟩
    · rw [wp_pure]
      refine wp_mono ih (fun _ m' h₂ => ?_) (fun _ _ => trivial)
      simp only [royaltyActs, List.flatMap_cons, if_neg hp]
      exact h₂

/-! ## Amounts -/

/-- The amount of `mint` that an act moves by the signature of a party to the
transaction (`pda` false) or of an address of the program (`pda` true). -/
def Act.amount (pda : Bool) (mint : Pubkey) : Act → ℕ
  | .invoke (.transferChecked _ _ mt _ _ n _) seeds =>
      if mt = mint ∧ seeds.isSome = pda then n else 0
  | _ => 0

def paid (as : List Act) (mint : Pubkey) : ℕ := (as.map (Act.amount false mint)).sum

def released (as : List Act) (mint : Pubkey) : ℕ := (as.map (Act.amount true mint)).sum

@[simp] theorem paid_append (as bs : List Act) (mint : Pubkey) :
    paid (as ++ bs) mint = paid as mint+paid bs mint := by
  simp [paid]

@[simp] theorem released_append (as bs : List Act) (mint : Pubkey) :
    released (as ++ bs) mint = released as mint+released bs mint := by
  simp [released]

theorem paid_flatMap (n : ℕ) (g : ℕ → List Act) (mint : Pubkey) :
    paid ((List.range n).flatMap g) mint = ((List.range n).map fun i => paid (g i) mint).sum := by
  induction n with
  | zero => rfl
  | succ n ih => simp [List.range_succ, ih]

theorem released_flatMap (n : ℕ) (g : ℕ → List Act) (mint : Pubkey) :
    released ((List.range n).flatMap g) mint =
      ((List.range n).map fun i => released (g i) mint).sum := by
  induction n with
  | zero => rfl
  | succ n ih => simp [List.range_succ, ih]

section
variable (tp src mt dst auth feeAcct : Pubkey) (n fee : ℕ) (dec : UInt8) (mint : Pubkey)

theorem paid_priceActs (h : fee ≤ n) :
    paid (priceActs tp src mt feeAcct dst auth n fee dec none) mint = if mt =
      mint then n else 0 := by
  unfold priceActs feeActs
  split <;> by_cases hm : mt = mint <;> simp [paid, Act.amount, transferAct, hm] <;> omega

theorem released_priceActs_none :
    released (priceActs tp src mt feeAcct dst auth n fee dec none) mint = 0 := by
  unfold priceActs feeActs
  split <;> simp [released, Act.amount, transferAct]

end

end Xete.Swap
