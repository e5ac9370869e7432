import XetePrograms.Swap.Bearer
import XetePrograms.Swap.OfferRun

/-!
# The vaults of offers and baskets

A vault comes into being, funded, in the call that opens its record, and is
closed in the call that closes it. In between nobody but the record can take
anything out, so a live record is always backed and a vault is never orphaned.
-/

set_option autoImplicit false

namespace Xete.Swap
open Xete.Octets Xete.Weakest Xete.Chain Xete.Token Xete.Runtime Xete.Rules

variable {E : Env} {H : Host} {m m' : Machine} {d : Bytes} {tag : UInt8} {k v r : Pubkey}
  {s s' : Ledger} {a : Action} {as : List Act}

/-! ## One vault -/

structure Funded (s : Ledger) (v mint authority : Pubkey) (n : ℕ) : Prop where
  lamports : 0 < (s v).lamports
  holds : ∃ t, tokenAt s v = some t ∧ t.mint = mint ∧ t.authority = authority ∧ n ≤ t.amount ∧
    Sealed t

theorem Funded.frameOf {held signed : Pubkey → Prop} {mint : Pubkey} {n : ℕ}
    (h : Funded s v mint r n) (hf : HoldingsOf H held signed s s') (hv : held (s v).owner)
    (hr : H.IsPda r) (hn : ¬signed r) : Funded s' v mint r n ∧ (s' v).owner = (s v).owner := by
  obtain ⟨hl,t,ht,hm,rfl,hamt,hsl⟩ := h
  obtain ⟨-,-,hp,-⟩ := tokenAt_some _ _ _ ht
  obtain ⟨⟨t',ht',hg⟩,hle⟩ := hf.tokens v t ht (hp ▸ hv) hr hn hsl
  obtain ⟨-,-,hp',-⟩ := tokenAt_some _ _ _ ht'
  refine ⟨⟨hl.trans_le hle,t',ht',hg.mint.trans hm,hg.authority,hamt.trans hg.amount,hg.isSealed⟩,
    ?_⟩
  rw [← hp', ← hp, hg.program]

theorem Funded.frame {signed : Pubkey → Prop} {mint : Pubkey} {n : ℕ}
    (h : Funded s v mint r n) (hf : Holdings H signed s s') (hr : H.IsPda r) (hn : ¬signed r) :
    Funded s' v mint r n := (h.frameOf hf trivial hr hn).1

theorem Funded.reap {mint : Pubkey} {n : ℕ} (h : Funded s v mint r n) :
    Funded (reap s) v mint r n := by
  have he := reap_live h.lamports
  obtain ⟨t,ht,hrest⟩ := h.holds
  refine ⟨he ▸ h.lamports,t,?_,hrest⟩
  rw [tokenAt_congr _ _ _ (congrArg Account.owner he) (congrArg Account.data he), ht]

theorem vacant_reap (h : Vacant s v) : Vacant (reap s) v := by
  by_cases hl : (s v).lamports = 0
  · have he := reap_dead hl
    exact ⟨by rw [he],by rw [he]⟩
  · have he := reap_live (Nat.pos_of_ne_zero hl)
    exact ⟨he ▸ h.1,he ▸ h.2⟩

def Act.Genuine : Act → Prop
  | .invoke cpi _ => cpi.isToken = true → IsTokenProgram cpi.program
  | _ => True

instance (a : Act) : Decidable (Act.Genuine a) :=
  match a with
  | .invoke cpi _ => inferInstanceAs (Decidable (cpi.isToken = true → IsTokenProgram cpi.program))
  | .write .. => inferInstanceAs (Decidable True)
  | .close .. => inferInstanceAs (Decidable True)
  | .log _ => inferInstanceAs (Decidable True)

def GenuineTokens (as : List Act) : Prop := ∀ a ∈ as, Act.Genuine a

instance (as : List Act) : Decidable (GenuineTokens as) :=
  inferInstanceAs (Decidable (∀ a ∈ as, Act.Genuine a))

theorem GenuineTokens.closes {p acct dest auth : Pubkey} {seeds : List Bytes} (h : GenuineTokens as)
    (hm : closeAct p acct dest auth seeds ∈ as) : IsTokenProgram p := h _ hm rfl

theorem GenuineTokens.inits {p acct mint owner : Pubkey} (h : GenuineTokens as)
    (hm : initAct p acct mint owner ∈ as) : IsTokenProgram p := h _ hm rfl

/-- A created vault, initialised and credited, is funded. -/
theorem escrow_funds {payer owner p src mint auth : Pubkey} {n space : ℕ} {dec : UInt8}
    {seeds : List Bytes} {sig : Option (List Bytes)} (hs : SystemRules E.host)
    (ht : TokenRules E.host) (hp : IsTokenProgram p)
    (hd : Did E [createAct E payer v space owner seeds,initAct p v mint r,
      transferAct p src mint v auth n dec sig] m m') : Funded m'.ledger v mint r n := by
  obtain ⟨s₁,h₁,s₂,h₂,s₃,h₃,rfl⟩ := hd
  have hnew : 0 < (s₁ v).lamports := by
    obtain ⟨-,-,hv,-⟩ := hs.create _ _ _ _ _ _ _ (effect_invoke _ _ _ _ h₁)
    rw [hv]
    exact hs.rent _
  obtain ⟨-,-,-,-,⟨t,hat,-,hm,hauth,hsl,-⟩,hsame,-⟩ :=
    ht.init _ _ _ _ _ _ hp (effect_invoke _ _ _ _ h₂)
  obtain ⟨ts,td,hts,htd,-,-,-,-,-,hle,hself,hmove,how,-,-,hlam⟩ :=
    ht.transfer _ _ _ _ _ _ _ _ _ hp (effect_invoke _ _ _ _ h₃)
  have hpos : 0 < (s₃ v).lamports := hlam v (by rw [next_ledger, (hsame v).2]; exact hnew)
  simp only [next_ledger] at hat hts htd hself hmove how
  obtain rfl : t = td := Option.some_inj.mp (hat.symm.trans htd)
  refine ⟨hpos,?_⟩
  by_cases he : src = v
  · -- a transfer to itself moves nothing
    subst he
    obtain rfl : t = ts := Option.some_inj.mp (hat.symm.trans hts)
    refine ⟨t,?_,hm,hauth,hle,hsl⟩
    rw [next_ledger, tokenAt_congr _ _ _ (how src) (hself rfl src), hat]
  · obtain ⟨-,t',ht',hamt,-,hm',hauth',-,-,hsl'⟩ := hmove he
    exact ⟨t',ht',hm',hauth'.trans hauth,by omega,hsl' hsl⟩

/-- After the transfer out of it a vault is closed for good. -/
theorem release_vacates {p mint dest auth payee auth' : Pubkey} {n : ℕ} {dec : UInt8}
    {sig : Option (List Bytes)} {seeds : List Bytes} (ht : TokenRules E.host)
    (hp : IsTokenProgram p)
    (hd : Did E [transferAct p v mint dest auth n dec sig,closeAct p v payee auth' seeds] m m') :
    Vacant m'.ledger v := by
  obtain ⟨s₁,h₁,s₂,h₂,rfl⟩ := hd
  obtain ⟨t,hat,-⟩ := (transferAct_transferred ht hp h₁).held
  obtain ⟨hgone,-⟩ := closeAct_closes ht hp hat h₂
  exact ⟨by rw [next_ledger, hgone],by rw [next_ledger, hgone]⟩

theorem vacant_did (hw : Wellformed E) (hf : Confined E.host) (hk : E.host.IsPda v)
    (h : Vacant m.ledger v) (hd : Did E as m m') (hn : ¬SignsIn E as v) : Vacant m'.ledger v :=
  (ran_frame hw hf as hd.ran).vacant v hk hn h

/-! ## A vault and its record -/

def owed (H : Host) (due : Bytes → Option (Pubkey × ℕ)) (a : Account) : Option (Pubkey × ℕ) :=
  if Live H a then due a.data else none

structure Backed (H : Host) (seeds : List Bytes) (due : Bytes → Option (Pubkey × ℕ)) (r : Pubkey)
    (s : Ledger) : Prop where
  funded : ∀ mint n, owed H due (s r) = some (mint,n) →
    ∃ v b, H.findProgramAddress seeds H.programId = some (v,b) ∧ Funded s v mint r n
  empty : owed H due (s r) = none →
    ∀ v b, H.findProgramAddress seeds H.programId = some (v,b) → Vacant s v

section
variable {p q : Place} {due : Bytes → Option (Pubkey × ℕ)}

/-- A change for which neither the record nor the vault signs. -/
theorem Backed.keep {signed touched : Pubkey → Prop} (h : Backed H q.seeds due r s)
    (hf : Frame H signed touched s s') (hh : Holdings H signed s s') (hr : H.IsPda r) (hq : q.Sized)
    (hnr : ¬signed r) (hnv : ∀ v, q.At H v → ¬signed v)
    (ho : owed H due (s' r) = owed H due (s r)) :
    Backed H q.seeds due r s' where
  funded mint n hw := by
    obtain ⟨v,b,hv,hfund⟩ := h.funded mint n (ho ▸ hw)
    exact ⟨v,b,hv,hfund.frame hh hr hnr⟩
  empty hw v b hv := by
    have hat : q.At H v := .of_find hq hv
    exact hf.vacant v hat.isPda (hnv v hat) (h.empty (ho ▸ hw) v b hv)

/-- A slot that is neither signed for nor changed asks what it asked. -/
theorem owed_frame {signed touched : Pubkey → Prop} (hsys : H.programId ≠ systemId)
    (hf : Frame H signed touched s s') (hk : p.At H r) (hslot : Slot H p (s r)) (hnr : ¬signed r)
    (hnt : ¬touched r) : owed H due (s' r) = owed H due (s r) := by
  by_cases ho : (s r).owner = H.programId
  · obtain ⟨ho',hd',-⟩ := hf.owned r ho hnt
    simp only [owed, Live, ho, ho', hd']
  · have hv : Vacant s r := by
      cases hslot with
      | vacant h₁ h₂ => exact ⟨h₁,h₂⟩
      | closed h₁ _ _ => exact (ho h₁).elim
      | live h₁ _ _ _ => exact (ho h₁).elim
    have hv' := hf.vacant r hk.isPda hnr hv
    have hdead : ¬Live H (s r) := fun hl => hsys (hl.1.symm.trans hv.1)
    have hdead' : ¬Live H (s' r) := fun hl => hsys (hl.1.symm.trans hv'.1)
    rw [owed, owed, if_neg hdead, if_neg hdead']

theorem Backed.reap (h : Backed H q.seeds due r s) (hsys : H.programId ≠ systemId)
    (hslot : Slot H p (s r)) : Backed H q.seeds due r (reap s) := by
  have ho : owed H due (Swap.reap s r) = owed H due (s r) := by
    by_cases hl : (s r).lamports = 0
    · have hdead : ¬Live H (s r) := fun ha => (hslot.live_of hsys ha).2.1.ne' hl
      have hdead' : ¬Live H (Swap.reap s r) := by
        rw [reap_dead hl]
        exact fun ha => hsys ha.1.symm
      rw [owed, owed, if_neg hdead, if_neg hdead']
    · rw [reap_live (Nat.pos_of_ne_zero hl)]
  constructor
  · intro mint n hw
    obtain ⟨v,b,hv,hfund⟩ := h.funded mint n (ho ▸ hw)
    exact ⟨v,b,hv,hfund.reap⟩
  · intro hw v b hv
    exact vacant_reap (h.empty (ho ▸ hw) v b hv)

/-- A wiped record and an empty vault. -/
theorem backed_wiped {seeds : List Bytes} (hw : Wiped H (s r))
    (hempty : ∀ v b, H.findProgramAddress seeds H.programId = some (v,b) → Vacant s v) :
    Backed H seeds due r s where
  funded mint n ho := by
    have hdead : ¬Live H (s r) := fun hl => hl.2 hw.2
    rw [owed, if_neg hdead] at ho
    cases ho
  empty _ := hempty

theorem found_vacant {seeds : List Bytes} {b : UInt8}
    (hv : H.findProgramAddress seeds H.programId = some (v,b)) (h : Vacant s v) :
    ∀ v' b', H.findProgramAddress seeds H.programId = some (v',b') → Vacant s v' := by
  intro v' b' hv'
  rw [hv, Option.some_inj, Prod.mk.injEq] at hv'
  exact hv'.1 ▸ h

/-- A live record and its funded vault. -/
theorem backed_live {seeds : List Bytes} {b : UInt8} {mint : Pubkey} {n : ℕ} (hl : Live H (s r))
    (hdue : due (s r).data = some (mint,n))
    (hv : H.findProgramAddress seeds H.programId = some (v,b)) (hf : Funded s v mint r n) :
    Backed H seeds due r s where
  funded mint' n' ho := by
    rw [owed, if_pos hl, hdue, Option.some_inj, Prod.mk.injEq] at ho
    obtain ⟨rfl,rfl⟩ := ho
    exact ⟨v,b,hv,hf⟩
  empty ho := by
    rw [owed, if_pos hl, hdue] at ho
    cases ho

end

/-! ## Offers -/

def offerDue (b : Bytes) : Option (Pubkey × ℕ) := some (keyAt b oWantMint,u64At b oWantAmt)

theorem MadeOffer.backs {k : OfferKeys} {bump vbump dec : UInt8} (hs : SystemRules E.host)
    (ht : TokenRules E.host) (hw : Wellformed E) (hno : NoSeizure E.host) (hz : ¬E.signed zeroKey)
    (h : MadeOffer E d m m' k bump vbump dec)
    (hg : GenuineTokens (makeOfferActs E k (m.ledger k.swap).data d bump vbump dec)) :
    Backed E.host (ovaultSeeds k.offerer (slice d 0 32)) offerDue k.offer m'.ledger := by
  have hn : (slice d 0 32).length = 32 := slice_length _ _ _ (by have := h.length; omega)
  have hat : (Place.offer k.offerer (slice d 0 32)).At E.host k.offer := .of_find hn h.address
  have hinit : initAct k.tokenProg k.ovault k.wantMint k.offer ∈
      makeOfferActs E k (m.ledger k.swap).data d bump vbump dec := by simp [makeOfferActs]
  have hparty : (Place.offer k.offerer (slice d 0 32)).party ≠ some zeroKey := by
    intro he
    exact hz (Option.some_inj.mp he ▸ h.signed)
  have hst := h.stores
  have hv := offerRecord_view k (m.ledger k.swap).data d bump h.length
  simp only [offerView, offeredTerms, OfferView.mk.injEq] at hv
  obtain ⟨-,-,hmint,hamt,-⟩ := hv
  obtain ⟨s₁,h₁,s₂,h₂,s₃,h₃,s₄,h₄,s₅,h₅,rfl⟩ := h.did
  have hfund : Funded s₄ k.ovault k.wantMint k.offer (u64At d 32) :=
    escrow_funds hs ht (hg.inits hinit) ⟨s₂,h₂,s₃,h₃,s₄,h₄,rfl⟩
  have hdata : (s₅ k.offer).data = offerRecord k (m.ledger k.swap).data d bump := hst.2
  have hlive : Live E.host (s₅ k.offer) := by
    refine Place.Holds.isLive hst.1 ?_ hparty
    rw [hdata]
    exact offerRecord_holds k _ bump h.length
  have hdue : offerDue (s₅ k.offer).data = some (k.wantMint,u64At d 32) := by
    rw [offerDue, hdata, hmint, hamt]
  exact backed_live hlive hdue h.vault
    (hfund.frame (effect_holdings hw hno _ h₅) hat.isPda (signsIn_write _ _ _))

theorem RefundedOffer.backs {k : RefundKeys} {nonce : Bytes} {mintIdx tokenIdx : ℕ} {dec : UInt8}
    (ht : TokenRules E.host) (hw : Wellformed E) (hf : Confined E.host)
    (h : RefundedOffer E nonce m m' k mintIdx tokenIdx dec) (hn : nonce.length = 32)
    (hg : GenuineTokens (refundOfferActs k (m.ledger k.offer).data nonce dec)) :
    Backed E.host (ovaultSeeds k.offerer nonce) offerDue k.offer m'.ledger := by
  obtain ⟨b,hb⟩ := h.vault
  have hvat : (Place.ovault k.offerer nonce).At E.host k.ovault := .of_find hn hb
  have hclose : closeAct k.tokenProg k.ovault k.offerer k.offer (offerSigner k.offerer
      (m.ledger k.offer).data nonce) ∈ refundOfferActs k (m.ledger k.offer).data nonce dec := by
    simp [refundOfferActs]
  have hd : Did E ([_,_] ++ [.close k.offer k.offerer]) m m' := h.did
  have hend := close_wipes hw hf hd (by simp [transferAct, closeAct]) (touchedIn_nil _)
    h.isOffer.owner
  obtain ⟨m₁,h₁,h₂⟩ := (did_append _ _ m m').mp hd
  refine backed_wiped ⟨hend.1,by rw [hend.2, zeros_length]⟩ (found_vacant hb ?_)
  exact vacant_did hw hf hvat.isPda (release_vacates ht (hg.closes hclose) h₁) h₂
    (signsIn_close _ _ _)

theorem AcceptedOffer.backs {k : AcceptKeys} {giveDec wantDec : UInt8} (ht : TokenRules E.host)
    (hw : Wellformed E) (hf : Confined E.host) (hc : E.host.CollisionFree)
    (h : AcceptedOffer E d m m' k giveDec wantDec) (hg : GenuineTokens (acceptActs k
      (m.ledger k.swap).data (m.ledger k.offer).data (slice d 0 32) (slice d 32 32)
      (feeAt m.ledger k.config (u64At (m.ledger k.offer).data oWantAmt)) giveDec wantDec)) :
    Backed E.host (ovaultSeeds k.offerer (slice d 32 32)) offerDue k.offer m'.ledger := by
  have hsn : (slice d 0 32).length = 32 := slice_length _ _ _ (by have := h.length; omega)
  have hon : (slice d 32 32).length = 32 := slice_length _ _ _ (by have := h.length; omega)
  obtain ⟨bs,hswap⟩ := h.swapAddress
  obtain ⟨bo,hoffer⟩ := h.offerAddress
  obtain ⟨b,hb⟩ := h.offerVault
  have hoat : (Place.offer k.offerer (slice d 32 32)).At E.host k.offer := .of_find hon hoffer
  have hsat : (Place.swap k.maker (slice d 0 32)).At E.host k.swap := .of_find hsn hswap
  have hvat : (Place.ovault k.offerer (slice d 32 32)).At E.host k.offerVault := .of_find hon hb
  have hp : IsTokenProgram k.tokenProg := by
    have hclose : closeAct k.tokenProg k.swapVault k.maker k.swap (swapSigner k.maker
        (m.ledger k.swap).data (slice d 0 32)) ∈ acceptActs k (m.ledger k.swap).data
        (m.ledger k.offer).data (slice d 0 32) (slice d 32 32)
        (feeAt m.ledger k.config (u64At (m.ledger k.offer).data oWantAmt)) giveDec wantDec := by
      simp [acceptActs]
    exact hg.closes hclose
  have hd := h.did
  rw [acceptActs_eq] at hd
  have hend := close_wipes hw hf hd (touchedIn_escrowActs _ _ _ _ _ _ _ _ _)
    (by simpa using hoat.ne hc hsat (by simp)) h.isOffer.owner
  obtain ⟨m₁,hprice,s₁,h₁,s₂,h₂,hrest⟩ := (did_append _ _ _ _).mp h.did
  obtain ⟨m₀,-,s₀,h₀,rfl⟩ := (did_append _ _ _ _).mp hprice
  -- the vault stays a token account until it is closed
  obtain ⟨t₀,hpaid,-⟩ := (transferAct_transferred ht hp h₀).held
  obtain ⟨t₁,hpaid,-⟩ := (transferAct_transferred ht hp h₁).tokens _ _ hpaid
  obtain ⟨hgone,-⟩ := closeAct_closes ht hp hpaid h₂
  refine backed_wiped ⟨hend.1,by rw [hend.2, zeros_length]⟩ (found_vacant hb ?_)
  refine vacant_did hw hf hvat.isPda ⟨by rw [next_ledger, hgone],by rw [next_ledger, hgone]⟩
    hrest ?_
  intro hj
  simp [closeAct] at hj
  have hat : (Place.swap k.maker (slice d 0 32)).At E.host k.offerVault := ⟨hsn,_,hj⟩
  cases hat.inj hc hvat

/-! ## Baskets -/

def basketDue (idx : UInt8) (b : Bytes) : Option (Pubkey × ℕ) :=
  if idx.toNat < (byteAt b bGiveCount).toNat then
    some (entryMint b bGive idx.toNat,entryAmount b bGive idx.toNat)
  else none

theorem flatMap_split {n i : ℕ} (g : ℕ → List Act) (h : i < n) :
    ∃ pre post, (List.range n).flatMap g = pre ++ (g i ++ post) := by
  obtain ⟨xs,ys,he⟩ := List.append_of_mem (List.mem_range.mpr h)
  exact ⟨xs.flatMap g,ys.flatMap g,by rw [he, List.flatMap_append, List.flatMap_cons]⟩

section
variable {maker swap tokenProg : Pubkey} {nonce : Bytes} {idx : UInt8} {g : ℕ → List Act}

/-- The vaults that sign in the legs of a new basket are those of its entries. -/
theorem escrow_signs {bump : UInt8} {n : ℕ} (hn : (slice d 0 32).length = 32)
    (hl : ∀ i < n, IsEscrowLeg E maker swap tokenProg d bump i (g i))
    (hs : SignsIn E ((List.range n).flatMap g) v) :
    ∃ i < n, (Place.bvault maker (slice d 0 32) (UInt8.ofNat i)).At E.host v := by
  obtain ⟨i,hi,hj⟩ := signsIn_flatMap hs
  obtain ⟨vault,source,vbump,dec,-,-,-,hg⟩ := hl i hi
  rw [hg] at hj
  simp [createAct, initAct, transferAct] at hj
  exact ⟨i,hi,hn,vbump,hj⟩

theorem OpenedBasket.signs_bvault {tokenProg : Pubkey} {bump : UInt8} {w g : ℕ → List Act}
    {maker' : Pubkey} (hc : E.host.CollisionFree)
    (h : OpenedBasket E d m m' maker swap tokenProg bump w g) (hm : m.trace = [])
    (hv : (Place.bvault maker' nonce idx).At E.host v) (hs : SignsIn E (m'.trace.map Event.act) v) :
    maker' = maker ∧ nonce = slice d 0 32 ∧ idx.toNat < giveCount d := by
  rw [did_trace _ _ _ h.did, hm, List.map_nil, List.nil_append, signsIn_append,
    signsIn_append] at hs
  rcases hs with (hs | hs) | hs
  · simp [createAct] at hs
    have hat : (Place.basket maker (slice d 0 32)).At E.host v := ⟨h.nonce,_,hs⟩
    cases hat.inj hc hv
  · obtain ⟨j,hj,hs⟩ := signsIn_flatMap hs
    obtain ⟨b,hb⟩ := h.wants j hj
    rw [hb] at hs
    exact (signsIn_write _ _ _ hs).elim
  · obtain ⟨i,hi,hat⟩ := escrow_signs h.nonce h.legs hs
    obtain ⟨rfl,rfl,rfl⟩ := Place.bvault.inj (hv.inj hc hat)
    refine ⟨rfl,rfl,?_⟩
    rw [UInt8.toNat_ofNat',
      Nat.mod_eq_of_lt (lt_of_lt_of_le (hi.trans_le h.counts.2.1) (by decide))]
    exact hi

theorem OpenedBasket.backs {tokenProg : Pubkey} {bump : UInt8} {w g : ℕ → List Act}
    (hs : SystemRules E.host) (ht : TokenRules E.host) (hw : Wellformed E) (hf : Confined E.host)
    (hno : NoSeizure E.host) (hc : E.host.CollisionFree) (hz : ¬E.signed zeroKey)
    (h : OpenedBasket E d m m' maker swap tokenProg bump w g) (hm : m.trace = [])
    (hg : GenuineTokens (m'.trace.map Event.act))
    (hempty : ∀ v b, E.host.findProgramAddress (bvaultSeeds maker (slice d 0 32) idx) E.programId =
      some (v,b) → Vacant m.ledger v) :
    Backed E.host (bvaultSeeds maker (slice d 0 32) idx) (basketDue idx) swap m'.ledger := by
  have hat : (Place.basket maker (slice d 0 32)).At E.host swap := .of_find h.nonce h.address
  have hparty : (Place.basket maker (slice d 0 32)).party ≠ some zeroKey := by
    intro he
    exact hz (Option.some_inj.mp he ▸ h.signed)
  have hst := h.stores
  have hlive : Live E.host (m'.ledger swap) := by
    refine Place.Holds.isLive hst.1 ?_ hparty
    rw [hst.2]
    exact h.holds
  have hhead : HeaderReads maker d (basketRecord E maker d bump (giveCount d)) bump :=
    basketRecord_header h.sized (Nat.le_refl _)
  have hdue : basketDue idx (m'.ledger swap).data = if idx.toNat < giveCount d then
      some (giveMintAt E idx.toNat,giveAmountAt d idx.toNat) else none := by
    rw [hst.2, basketDue, hhead.giveCount]
    split
    · rename_i hi
      have hread : entryMint (basketRecord E maker d bump (giveCount d)) bGive idx.toNat = _ ∧ _ :=
        basketRecord_give h.sized (Nat.le_refl _) hi
      rw [hread.1, hread.2]
    · rfl
  have htr := did_trace _ _ _ h.did
  rw [hm, List.map_nil, List.nil_append] at htr
  by_cases hi : idx.toNat < giveCount d
  · -- the leg of this entry funds the vault, and the acts after it leave it alone
    obtain ⟨vault,source,vbump,dec,-,-,hv,hleg⟩ := h.legs _ hi
    rw [UInt8.ofNat_toNat] at hv hleg
    obtain ⟨pre,post,hsplit⟩ := flatMap_split g hi
    have hd := h.did
    rw [hsplit] at hd
    obtain ⟨m₁,-,hd⟩ := (did_append _ _ m m').mp hd
    obtain ⟨m₂,-,hd⟩ := (did_append _ _ m₁ m').mp hd
    have hinit : initAct tokenProg vault (giveMintAt E idx.toNat) swap ∈ m'.trace.map
      Event.act := by
      rw [htr, hsplit, hleg]
      simp
    rw [hleg] at hd
    obtain ⟨s₁,h₁,s₂,h₂,s₃,h₃,hrest⟩ := hd
    have hfund : Funded s₃ vault (giveMintAt E idx.toNat) swap (giveAmountAt d idx.toNat) :=
      escrow_funds hs ht (hg.inits hinit) ⟨s₁,h₁,s₂,h₂,s₃,h₃,rfl⟩
    have hquiet : ¬SignsIn E (.write swap (basketRecord E maker d bump (idx.toNat+1)) :: post)
      swap := by
      intro hj
      rcases (signsIn_cons _ _ _).mp hj with hj | hj
      · exact signsIn_write _ _ _ hj
      · have hall : SignsIn E ((List.range (giveCount d)).flatMap g) swap := by
          rw [hsplit, signsIn_append, signsIn_append]
          exact .inr (.inr hj)
        obtain ⟨i,-,hat'⟩ := escrow_signs h.nonce h.legs hall
        cases hat'.inj hc hat
    apply backed_live hlive (by rw [hdue, if_pos hi]) hv
    exact hfund.frame (ran_holdings hw hno _ hrest.ran) hat.isPda hquiet
  · constructor
    · intro mint n ho
      rw [owed, if_pos hlive, hdue, if_neg hi] at ho
      cases ho
    · intro _ v b hv
      have hvat : (Place.bvault maker (slice d 0 32) idx).At E.host v := .of_find h.nonce hv
      apply vacant_did hw hf hvat.isPda (hempty v b hv) h.did
      intro hj
      rw [← htr] at hj
      exact hi (h.signs_bvault hc hm hvat hj).2.2

/-- The legs of a basket and its close leave no vault of it. -/
theorem GiveLegs.backs {b : Bytes} {giveBase : ℕ} {pre : List Act} (ht : TokenRules E.host)
    (hw : Wellformed E) (hf : Confined E.host) (hc : E.host.CollisionFree)
    (hl : GiveLegs E b swap maker tokenProg nonce giveBase g)
    (hd : Did E (pre ++ closingActs b swap maker g) m m') (hi : Idle E pre)
    (hb : IsBasket E m.ledger swap nonce) (hbe : b = (m.ledger swap).data) (hn : nonce.length = 32)
    (hg : GenuineTokens (pre ++ closingActs b swap maker g))
    (h : Backed E.host (bvaultSeeds (keyAt b bMaker) nonce idx) (basketDue idx) swap m.ledger) :
    Backed E.host (bvaultSeeds (keyAt b bMaker) nonce idx) (basketDue idx) swap m'.ledger := by
  subst hbe
  obtain ⟨hsign,htouch⟩ := hl.names hb.address
  have hat : (Place.basket (keyAt (m.ledger swap).data bMaker) nonce).At E.host swap :=
    ⟨hn,_,hb.address⟩
  have hend : Stores E swap (zeros (m.ledger swap).data.length) m' := by
    rw [closingActs, ← List.append_assoc] at hd
    refine close_wipes hw hf hd ?_ (touchedIn_nil _) hb.owner
    rw [touchedIn_append]
    exact fun hj => hj.elim (hi.2 _) (htouch _)
  have hquiet : ∀ v, (Place.bvault (keyAt (m.ledger swap).data bMaker) nonce idx).At E.host v →
      ¬SignsIn E (pre ++ closingActs (m.ledger swap).data swap maker g) v := by
    intro v hv hj
    rw [closingActs, signsIn_append, signsIn_append] at hj
    have he : v = swap := hsign v ((hj.resolve_left (hi.1 v)).resolve_right (signsIn_close _ _ _))
    cases (he ▸ hv : Place.At _ _ swap).inj hc hat
  apply backed_wiped ⟨hend.1,by rw [hend.2, zeros_length]⟩
  intro v vb hv
  have hvat : (Place.bvault (keyAt (m.ledger swap).data bMaker) nonce idx).At E.host v :=
    .of_find hn hv
  have hnot := hquiet v hvat
  by_cases hlt : idx.toNat < (byteAt (m.ledger swap).data bGiveCount).toNat
  · -- the leg of this entry closes the vault, and no later act signs for it
    obtain ⟨vault,dest,dec,bump,-,hv',hleg⟩ := hl _ hlt
    rw [UInt8.ofNat_toNat, hv, Option.some_inj, Prod.mk.injEq] at hv'
    obtain ⟨rfl,-⟩ := hv'
    obtain ⟨before,after,hsplit⟩ := flatMap_split g hlt
    have hclose : closeAct tokenProg v maker swap (basketSigner (m.ledger swap).data nonce) ∈
        pre ++ closingActs (m.ledger swap).data swap maker g := by
      rw [closingActs, hsplit, hleg]
      simp
    rw [closingActs, hsplit, List.append_assoc, List.append_assoc] at hd hnot
    obtain ⟨m₁,-,hd⟩ := (did_append _ _ m m').mp hd
    obtain ⟨m₂,-,hd⟩ := (did_append _ _ m₁ m').mp hd
    obtain ⟨m₃,hd₃,hd⟩ := (did_append _ _ m₂ m').mp hd
    rw [hleg] at hd₃
    apply vacant_did hw hf hvat.isPda (release_vacates ht (hg.closes hclose) hd₃) hd
    rw [signsIn_append, signsIn_append, signsIn_append] at hnot
    tauto
  · refine vacant_did hw hf hvat.isPda (h.empty ?_ v vb hv) hd hnot
    rw [owed, basketDue, if_neg hlt, ite_self]

end

/-! ## One step -/

section
variable {p q : Place} {due : Bytes → Option (Pubkey × ℕ)}

/-- A call that neither signs for nor changes the record, and so does not sign for
the vault. -/
theorem Backed.unused (hw : Wellformed E) (hf : Confined E.host) (hno : NoSeizure E.host)
    (hk : p.At E.host r) (hq : q.Sized) (hslot : Slot E.host p (m.ledger r)) (hd : Did E as m m')
    (hu : ¬Uses E as r) (hv : ∀ v, q.At E.host v → SignsIn E as v → Uses E as r)
    (h : Backed E.host q.seeds due r m.ledger) : Backed E.host q.seeds due r m'.ledger := by
  have hnr : ¬SignsIn E as r := fun hj => hu (.inl hj)
  have hnt : ¬TouchedIn as r := fun hj => hu (.inr hj)
  have hfr := ran_frame hw hf as hd.ran
  exact h.keep hfr (ran_holdings hw hno as hd.ran) hk.isPda hq hnr
    (fun v hat hj => hu (hv v hat hj)) (owed_frame hw.notSystem hfr hk hslot hnr hnt)

end

theorem Outcome.offer_tag {offerer : Pubkey} {nonce : Bytes} (hc : E.host.CollisionFree)
    (h : Outcome E d m m' tag) (hm : m.trace = []) (hk : (Place.offer offerer nonce).At E.host k)
    (hu : Uses E (m'.trace.map Event.act) k) : tag ∈ ([4,5,6,7] : List UInt8) := by
  rcases hu with hs | ht
  · exact h.maySign hc hm hk hs
  · obtain ⟨as,hd,hfp⟩ := h.within
    rw [did_trace _ _ _ hd, hm] at ht
    obtain ⟨q,hq,hqk⟩ := hfp.changes k ht
    rwa [hqk.inj hc hk] at hq

section
variable {offerer : Pubkey} {nonce : Bytes} {bump : UInt8}

theorem MadeOffer.uses {k : OfferKeys} {obump vbump dec : UInt8} (hc : E.host.CollisionFree)
    (h : MadeOffer E d m m' k obump vbump dec) (hk : (Place.offer offerer nonce).At E.host r)
    (hu : Uses E (makeOfferActs E k (m.ledger k.swap).data d obump vbump dec) r) : r = k.offer := by
  rcases hu with hj | hj
  · simp [makeOfferActs, createAct, initAct, transferAct] at hj
    rcases hj with hj | hj
    · exact address_unique hj (E.host.find_create _ _ _ _ h.address)
    · have hat : (Place.ovault k.offerer (slice d 0 32)).At E.host r :=
        ⟨slice_length _ _ _ (by have := h.length; omega),_,hj⟩
      cases hat.inj hc hk
  · simpa [makeOfferActs, createAct, initAct, transferAct] using hj

theorem AcceptedOffer.uses {k : AcceptKeys} {giveDec wantDec : UInt8} {fee : ℕ} (hw : Wellformed E)
    (hc : E.host.CollisionFree) (h : AcceptedOffer E d m m' k giveDec wantDec)
    (hk : (Place.offer offerer nonce).At E.host r)
    (hu : Uses E (acceptActs k (m.ledger k.swap).data (m.ledger k.offer).data (slice d 0 32)
      (slice d 32 32) fee giveDec wantDec) r) : r = k.offer := by
  obtain ⟨hs,ho⟩ := h.signers hw
  have hsat : (Place.swap k.maker (slice d 0 32)).At E.host k.swap :=
    ⟨slice_length _ _ _ (by have := h.length; omega),_,hs⟩
  have hne : r ≠ k.swap := hk.ne hc hsat (by simp)
  rw [acceptActs_eq] at hu
  rcases hu with hj | hj
  · rw [escrowActs, signsIn_append, signsIn_append] at hj
    simp [transferAct, closeAct] at hj
    rcases hj with hj | hj | hj | hj
    · exact address_unique (signsIn_priceActs hj) ho
    · exact (hne (address_unique hj hs)).elim
    · exact address_unique hj ho
    · exact (hne (address_unique hj hs)).elim
  · simp only [touchedIn_append, touchedIn_escrowActs, touchedIn_cons_cons, touchedIn_close,
      false_or] at hj
    exact hj.resolve_right hne

theorem RefundedOffer.uses {k : RefundKeys} {ononce : Bytes} {mintIdx tokenIdx : ℕ} {dec : UInt8}
    (hw : Wellformed E) (h : RefundedOffer E ononce m m' k mintIdx tokenIdx dec)
    (hn : ononce.length = 32)
    (hu : Uses E (refundOfferActs k (m.ledger k.offer).data ononce dec) r) :
    r = k.offer := by
  rcases hu with hj | hj
  · simp [refundOfferActs, transferAct, closeAct] at hj
    exact address_unique hj (h.signer hw hn)
  · simpa [refundOfferActs, transferAct, closeAct] using hj

/-- The vault of an offer signs only where the record is written. -/
theorem Outcome.ovault_signs (hc : E.host.CollisionFree) (h : Outcome E d m m' tag)
    (hm : m.trace = [])
    (hr : E.host.findProgramAddress (offerSeeds offerer nonce) E.programId = some (r,bump))
    (hv : (Place.ovault offerer nonce).At E.host v) (hs : SignsIn E (m'.trace.map Event.act) v) :
    Uses E (m'.trace.map Event.act) r := by
  have htag : tag = 4 := by simpa [MaySign] using h.maySign hc hm hv hs
  cases h with
  | madeOffer k _ vbump _ h =>
    rw [did_trace _ _ _ h.did, hm, List.map_nil, List.nil_append] at hs ⊢
    simp [makeOfferActs, createAct, initAct, transferAct] at hs
    have hn : (slice d 0 32).length = 32 := slice_length _ _ _ (by have := h.length; omega)
    rcases hs with hs | hs
    · have hat : (Place.offer k.offerer (slice d 0 32)).At E.host v := ⟨hn,_,hs⟩
      cases hat.inj hc hv
    · have hat : (Place.ovault k.offerer (slice d 0 32)).At E.host v := ⟨hn,_,hs⟩
      obtain ⟨rfl,rfl⟩ := Place.ovault.inj (hat.inj hc hv)
      have hkey := h.address.symm.trans hr
      rw [Option.some_inj, Prod.mk.injEq] at hkey
      obtain ⟨rfl,-⟩ := hkey
      exact .inr (by simp [makeOfferActs, createAct, initAct, transferAct])
  | cancelledListing _ ht _ _ _ _ => subst htag; exact absurd ht (by decide)
  | expiredListing _ ht _ _ _ => subst htag; exact absurd ht (by decide)
  | sold _ ht _ => subst htag; exact absurd ht (by decide)
  | bought _ ht _ => subst htag; exact absurd ht (by decide)
  | _ => exact absurd htag (by decide)

theorem Outcome.offerBacked (hs : SystemRules E.host) (ht : TokenRules E.host) (hw : Wellformed E)
    (hf : Confined E.host) (hno : NoSeizure E.host) (hc : E.host.CollisionFree)
    (hz : ¬E.signed zeroKey) (hn : nonce.length = 32)
    (hr : E.host.findProgramAddress (offerSeeds offerer nonce) E.programId = some (r,bump))
    (hslot : Slot E.host (.offer offerer nonce) (m.ledger r)) (hm : m.trace = [])
    (h : Outcome E d m m' tag) (hg : GenuineTokens (m'.trace.map Event.act))
    (hb : Backed E.host (Place.ovault offerer nonce).seeds offerDue r m.ledger) :
    Backed E.host (Place.ovault offerer nonce).seeds offerDue r m'.ledger := by
  have hk : (Place.offer offerer nonce).At E.host r := .of_find hn hr
  have hacts : ∀ {as}, Did E as m m' → m'.trace.map Event.act = as := fun hd => by
    rw [did_trace _ _ _ hd, hm, List.map_nil, List.nil_append]
  by_cases hu : Uses E (m'.trace.map Event.act) r
  · have htag := h.offer_tag hc hm hk hu
    cases h with
    | madeOffer k _ _ _ h =>
      rw [hacts h.did] at hu hg
      obtain rfl := h.uses hc hk hu
      have hat : (Place.offer k.offerer (slice d 0 32)).At E.host k.offer :=
        .of_find (slice_length _ _ _ (by have := h.length; omega)) h.address
      obtain ⟨rfl,rfl⟩ := Place.offer.inj (hk.inj hc hat)
      exact h.backs hs ht hw hno hz hg
    | acceptedOffer k _ _ h =>
      rw [hacts h.did] at hu hg
      obtain rfl := h.uses hw hc hk hu
      have hat : (Place.offer k.offerer (slice d 32 32)).At E.host k.offer :=
        ⟨slice_length _ _ _ (by have := h.length; omega),_,(h.signers hw).2⟩
      obtain ⟨rfl,rfl⟩ := Place.offer.inj (hk.inj hc hat)
      exact h.backs ht hw hf hc hg
    | withdrawnOffer k _ hl _ h =>
      rw [hacts h.did] at hu hg
      obtain rfl := h.uses hw hl hu
      have hat : (Place.offer k.offerer d).At E.host k.offer := ⟨hl,_,h.signer hw hl⟩
      obtain ⟨rfl,rfl⟩ := Place.offer.inj (hk.inj hc hat)
      exact h.backs ht hw hf hl hg
    | expiredOffer k _ hl _ h =>
      rw [hacts h.did] at hu hg
      obtain rfl := h.uses hw hl hu
      have hat : (Place.offer k.offerer d).At E.host k.offer := ⟨hl,_,h.signer hw hl⟩
      obtain ⟨rfl,rfl⟩ := Place.offer.inj (hk.inj hc hat)
      exact h.backs ht hw hf hl hg
    | cancelledListing _ ht _ _ _ _ => exact (tags_apart htag ht rfl).elim
    | expiredListing _ ht _ _ _ => exact (tags_apart htag ht rfl).elim
    | sold _ ht _ => exact (tags_apart htag ht rfl).elim
    | bought _ ht _ => exact (tags_apart htag ht rfl).elim
    | _ => exact absurd htag (by decide)
  · obtain ⟨as,hd,-⟩ := h.within
    have hv := fun v hat hj => h.ovault_signs (v := v) hc hm hr hat hj
    rw [hacts hd] at hu hv
    exact hb.unused hw hf hno hk hn hslot hd hu hv

end

section
variable {maker : Pubkey} {nonce : Bytes} {bump idx : UInt8}

/-- The vault of a basket signs only where the record is written. -/
theorem Outcome.bvault_signs (hc : E.host.CollisionFree) (h : Outcome E d m m' tag)
    (hm : m.trace = [])
    (hr : E.host.findProgramAddress (basketSeeds maker nonce) E.programId = some (r,bump))
    (hv : (Place.bvault maker nonce idx).At E.host v) (hs : SignsIn E (m'.trace.map Event.act) v) :
    Uses E (m'.trace.map Event.act) r := by
  have htag : tag ∈ ([12] : List UInt8) := by simpa [MaySign] using h.maySign hc hm hv hs
  cases h with
  | openedBasket _ _ _ b _ _ h =>
    obtain ⟨rfl,rfl,-⟩ := h.signs_bvault hc hm hv hs
    have hkey := h.address.symm.trans hr
    rw [Option.some_inj, Prod.mk.injEq] at hkey
    obtain ⟨rfl,-⟩ := hkey
    rw [did_trace _ _ _ h.did, hm, List.map_nil, List.nil_append]
    exact .inr (.inl ⟨patches (zeros basketLen) (headerFields maker d b),by simp⟩)
  | cancelledListing _ ht _ _ _ _ => exact (tags_apart htag ht rfl).elim
  | expiredListing _ ht _ _ _ => exact (tags_apart htag ht rfl).elim
  | sold _ ht _ => exact (tags_apart htag ht rfl).elim
  | bought _ ht _ => exact (tags_apart htag ht rfl).elim
  | _ => exact absurd htag (by decide)

theorem live_of_bearer {a : Account} (ho : a.owner = H.programId)
    (hmode : byteAt a.data bAuthMode = authBearer) : Live H a := by
  refine ⟨ho,fun hz => ?_⟩
  rw [hz, byteAt_zeros] at hmode
  exact absurd hmode (by decide)

theorem Rewrapped.live {bearer : Pubkey} (h : Rewrapped E d m m' k bearer) :
    Live E.host (m.ledger k) :=
  live_of_bearer h.owner h.mode

/-- A re-keyed basket asks what it asked. -/
theorem Rewrapped.owed {bearer : Pubkey} (h : Rewrapped E d m m' k bearer)
    (hg : (byteAt (m.ledger k).data bGiveCount).toNat ≤ maxLeg) :
    owed E.host (basketDue idx) (m'.ledger k) = owed E.host (basketDue idx) (m.ledger k) := by
  have hst : Stores E k (patch (m.ledger k).data bClaimAuth (slice d 32 32)) m' := by
    obtain ⟨s₁,he,rfl⟩ := h.did
    exact effect_write_stores he
  have hterms : SameTerms (m.ledger k).data (m'.ledger k).data := by
    rw [hst.2]
    exact sameTerms_rekey h.size (slice_length _ _ _ (by have := h.length; omega))
  have hread : ∀ off, off+1 ≤ bClaimAuth → byteAt (m'.ledger k).data off =
    byteAt (m.ledger k).data off := by
    intro off ho
    rw [byteAt_eq_slice, hterms.field off 1 (.inl ho), ← byteAt_eq_slice]
  have hlive' : Live E.host (m'.ledger k) :=
    live_of_bearer hst.1 ((hread bAuthMode (by decide)).trans h.mode)
  rw [Swap.owed, Swap.owed, if_pos h.live, if_pos hlive', basketDue, basketDue,
    hread bGiveCount (by decide)]
  split
  · rename_i hi
    have hin : idx.toNat*entryLen+entryLen ≤ maxLeg*entryLen := by
      rw [← Nat.succ_mul]
      exact Nat.mul_le_mul_right _ (hi.trans_le hg)
    simp only [maxLeg, entryLen] at hin
    have hmint : entryMint (m'.ledger k).data bGive idx.toNat =
      entryMint (m.ledger k).data bGive idx.toNat := by
      have hin' : bGive+idx.toNat*entryLen+32 ≤ bClaimAuth := by
        simp only [bGive, entryLen, bClaimAuth]
        omega
      apply Pubkey.ext'
      have hsize := h.size
      have hsize' := hterms.length.trans hsize
      simp only [basketLen] at hsize hsize'
      rw [entryMint, entryMint, keyAt_bytes _ _ (by simp only [bClaimAuth] at hin'; omega),
        keyAt_bytes _ _ (by simp only [bClaimAuth] at hin'; omega)]
      exact hterms.field _ _ (.inl hin')
    have hamt : entryAmount (m'.ledger k).data bGive idx.toNat =
        entryAmount (m.ledger k).data bGive idx.toNat := by
      rw [entryAmount, entryAmount, u64At, u64At, hterms.field _ _ (.inl (by
        simp only [bGive, entryLen, bClaimAuth]
        omega))]
    rw [hmint, hamt]
  · rfl

theorem Outcome.basketBacked (hs : SystemRules E.host) (ht : TokenRules E.host) (hw : Wellformed E)
    (hf : Confined E.host) (hno : NoSeizure E.host) (hc : E.host.CollisionFree)
    (hz : ¬E.signed zeroKey) (hn : nonce.length = 32)
    (hr : E.host.findProgramAddress (basketSeeds maker nonce) E.programId = some (r,bump))
    (hslot : Slot E.host (.basket maker nonce) (m.ledger r)) (hm : m.trace = [])
    (h : Outcome E d m m' tag) (hg : GenuineTokens (m'.trace.map Event.act))
    (hb : Backed E.host (Place.bvault maker nonce idx).seeds (basketDue idx) r m.ledger) :
    Backed E.host (Place.bvault maker nonce idx).seeds (basketDue idx) r m'.ledger := by
  have hk : (Place.basket maker nonce).At E.host r := .of_find hn hr
  have hacts : ∀ {as}, Did E as m m' → m'.trace.map Event.act = as := fun hd => by
    rw [did_trace _ _ _ hd, hm, List.map_nil, List.nil_append]
  have hrelease : ∀ {swap mk tokenProg pre g giveBase},
      GiveLegs E (m.ledger swap).data swap mk tokenProg d giveBase g →
      Did E (pre ++ closingActs (m.ledger swap).data swap mk g) m m' → Idle E pre →
      IsBasket E m.ledger swap d → d.length = 32 → Uses E (m'.trace.map Event.act) r →
      Backed E.host (Place.bvault maker nonce idx).seeds (basketDue idx) r m'.ledger := by
    intro swap mk tokenProg pre g giveBase hl hd hi hba hdl hu
    obtain rfl := closing_names hl hd hi hba rfl hm hu
    have hat : (Place.basket (keyAt (m.ledger r).data bMaker) d).At E.host r := ⟨hdl,_,hba.address⟩
    obtain ⟨rfl,rfl⟩ := Place.basket.inj (hk.inj hc hat)
    exact hl.backs ht hw hf hc hd hi hba rfl hn (hacts hd ▸ hg) hb
  by_cases hu : Uses E (m'.trace.map Event.act) r
  · have htag := h.basket_tag hc hm hk hu
    cases h with
    | openedBasket mk swap _ _ _ _ h =>
      obtain rfl : r = swap := by
        have hparty : ¬∃ q : Place, q.party = none ∧ q.At E.host r := by
          rintro ⟨q,hq,hqr⟩
          rw [hqr.inj hc hk] at hq
          cases hq
        have hnames := h.names hm
        exact hu.elim (fun hj => (hnames.signs r hj).resolve_right hparty)
          fun hj => (hnames.changes r hj).resolve_right hparty
      have hat : (Place.basket mk (slice d 0 32)).At E.host r := .of_find h.nonce h.address
      obtain ⟨rfl,rfl⟩ := Place.basket.inj (hk.inj hc hat)
      have hv := did_vacant hs h.did
      refine h.backs hs ht hw hf hno hc hz hm hg (hb.empty ?_)
      have hdead : ¬Live E.host (m.ledger r) := fun hl => hw.notSystem (hl.1.symm.trans hv.1)
      rw [Swap.owed, if_neg hdead]
    | filledBasket _ _ _ _ _ _ h =>
      exact hrelease h.giveLegs h.did h.idle h.isBasket h.length hu
    | claimedBasket _ _ _ _ _ h =>
      exact hrelease h.giveLegs h.did idle_nil h.isBasket h.length hu
    | rewrapped swap bearer h =>
      have hd := h.did
      rw [hacts hd] at hu
      obtain rfl : r = swap := by simpa [Uses] using hu
      have hgives : (byteAt (m.ledger r).data bGiveCount).toNat ≤ maxLeg :=
        BasketHolds.gives (hslot.live_of hw.notSystem h.live).1
      exact hb.keep (ran_frame hw hf _ hd.ran) (ran_holdings hw hno _ hd.ran) hk.isPda hn
        (signsIn_write _ _ _) (fun v _ => signsIn_write _ _ _) (h.owed hgives)
    | cancelledBasket _ _ _ _ _ _ h =>
      exact hrelease h.giveLegs h.did (idle_delistActs _ _ _) h.isBasket h.length hu
    | expiredBasket _ _ _ _ h =>
      exact hrelease h.giveLegs h.did idle_nil h.isBasket h.length hu
    | cancelledListing _ ht _ _ _ _ => exact (tags_apart htag ht rfl).elim
    | expiredListing _ ht _ _ _ => exact (tags_apart htag ht rfl).elim
    | sold _ ht _ => exact (tags_apart htag ht rfl).elim
    | bought _ ht _ => exact (tags_apart htag ht rfl).elim
    | _ => exact absurd htag (by decide)
  · obtain ⟨as,hd,-⟩ := h.within
    have hv : ∀ v, (Place.bvault maker nonce idx).At E.host v →
      SignsIn E (m'.trace.map Event.act) v →
        Uses E (m'.trace.map Event.act) r := fun v hat hj => h.bvault_signs hc hm hr hat hj
    rw [hacts hd] at hu hv
    exact hb.unused hw hf hno hk hn hslot hd hu hv

end

/-! ## Runs -/

def Solid (H : Host) (a : Action) (s s' : Ledger) : Prop :=
  Keyed a s s' ∧ GenuineTokens (a.acts s) ∧ Unseized H a s s'

theorem run_backed {p q : Place} {due : Bytes → Option (Pubkey × ℕ)} {s₀ : Ledger}
    (hs : SystemRules H) (hf : Confined H) (hc : H.CollisionFree) (hsys : H.programId ≠ systemId)
    (hg : Genesis H s₀) (hp : p.party.isSome) (hk : p.At H r) (hq : q.Sized) (hqc : q ≠ .config)
    (hcall : ∀ {E : Env} {d m m' tag}, E.host = H → Wellformed E → ¬E.signed zeroKey →
      m.trace = [] → Outcome E d m m' tag → GenuineTokens (m'.trace.map Event.act) →
      Slot H p (m.ledger r) → Backed H q.seeds due r m.ledger → Backed H q.seeds due r m'.ledger)
    (h : Run H (Solid H) s₀ s) : Backed H q.seeds due r s := by
  have hboth : Slot H p (s r) ∧ Backed H q.seeds due r s := by
    apply h.invariant (P := fun s => Slot H p (s r) ∧ Backed H q.seeds due r s)
    · rintro a s₁ s₂ hstep ⟨hkey,hgen,hun⟩ ⟨hslot,hb⟩
      refine ⟨(hstep.slotStep hs hf hc hsys hp hk hkey hslot).slot,?_⟩
      cases hstep with
      | call c _ m ho hr =>
        obtain ⟨tag,d,-,hout⟩ := Call.outcome hs hf ho hr
        simp only [Action.acts, hr] at hgen
        exact hcall ho.host ho.wellformed (hkey c rfl) rfl hout hgen hslot hb
      | outside _ _ hfr =>
        exact hb.keep hfr (hun rfl) hk.isPda hq id (fun _ _ => id)
          (owed_frame hsys hfr hk hslot id id)
      | reap => exact hb.reap hsys hslot
    · obtain ⟨ho,hd⟩ := hg.vacant hp hk
      have hdead : ¬Live H (s₀ r) := fun hl => hsys (hl.1.symm.trans ho)
      refine ⟨.vacant ho hd,?_,?_⟩
      · intro mint n hw
        rw [owed, if_neg hdead] at hw
        cases hw
      · exact fun _ v b hv => hg q v hqc (.of_find hq hv)
  exact hboth.2

structure OfferSolvent (H : Host) (offerer : Pubkey) (nonce : Bytes) (s : Ledger) : Prop where
  backed : ∀ r b, H.findProgramAddress (offerSeeds offerer nonce) H.programId = some (r,b) →
    Live H (s r) → ∃ v b', H.findProgramAddress (ovaultSeeds offerer nonce) H.programId =
      some (v,b') ∧ Funded s v (keyAt (s r).data oWantMint) r (u64At (s r).data oWantAmt)
  orphan : ∀ r b v b', H.findProgramAddress (offerSeeds offerer nonce) H.programId = some (r,b) →
    H.findProgramAddress (ovaultSeeds offerer nonce) H.programId = some (v,b') → ¬Live H (s r) →
      Vacant s v

structure BasketSolvent (H : Host) (maker : Pubkey) (nonce : Bytes) (s : Ledger) : Prop where
  backed : ∀ r b, H.findProgramAddress (basketSeeds maker nonce) H.programId = some (r,b) →
    Live H (s r) → ∀ idx : UInt8, idx.toNat < (byteAt (s r).data bGiveCount).toNat →
      ∃ v b', H.findProgramAddress (bvaultSeeds maker nonce idx) H.programId = some (v,b') ∧
        Funded s v (entryMint (s r).data bGive idx.toNat) r (entryAmount (s r).data bGive idx.toNat)
  surplus : ∀ r b (idx : UInt8) v b',
    H.findProgramAddress (basketSeeds maker nonce) H.programId = some (r,b) →
    H.findProgramAddress (bvaultSeeds maker nonce idx) H.programId = some (v,b') →
    (byteAt (s r).data bGiveCount).toNat ≤ idx.toNat → Vacant s v
  orphan : ∀ r b (idx : UInt8) v b',
    H.findProgramAddress (basketSeeds maker nonce) H.programId = some (r,b) →
    H.findProgramAddress (bvaultSeeds maker nonce idx) H.programId = some (v,b') →
    ¬Live H (s r) → Vacant s v

/-- In every reachable state every offer and every basket is solvent. -/
theorem escrows_solvent {s₀ : Ledger} (hs : SystemRules H) (ht : TokenRules H) (hf : Confined H)
    (hno : NoSeizure H) (hc : H.CollisionFree) (hsys : H.programId ≠ systemId) (hg : Genesis H s₀)
    (hrun : Run H (Solid H) s₀ s) :
    (∀ offerer nonce, nonce.length = 32 → OfferSolvent H offerer nonce s) ∧
      ∀ maker nonce, nonce.length = 32 → BasketSolvent H maker nonce s := by
  constructor
  · intro offerer nonce hn
    have hb : ∀ r b, H.findProgramAddress (offerSeeds offerer nonce) H.programId = some (r,b) →
        Backed H (ovaultSeeds offerer nonce) offerDue r s := by
      intro r b hr
      have hk : (Place.offer offerer nonce).At H r := .of_find hn hr
      have hq : (Place.ovault offerer nonce).Sized := hn
      refine run_backed hs hf hc hsys hg rfl hk hq (by simp) ?_ hrun
      rintro E d m m' tag rfl hw hz hm hout hgen hslot hb
      exact hout.offerBacked hs ht hw hf hno hc hz hn hr hslot hm hgen hb
    constructor
    · intro r b hr hl
      apply (hb r b hr).funded _ _
      rw [owed, if_pos hl, offerDue]
    · intro r b v b' hr hv hl
      refine (hb r b hr).empty ?_ v b' hv
      rw [owed, if_neg hl]
  · intro maker nonce hn
    have hb : ∀ r b idx, H.findProgramAddress (basketSeeds maker nonce) H.programId = some (r,b) →
        Backed H (bvaultSeeds maker nonce idx) (basketDue idx) r s := by
      intro r b idx hr
      have hk : (Place.basket maker nonce).At H r := .of_find hn hr
      have hq : (Place.bvault maker nonce idx).Sized := hn
      refine run_backed hs hf hc hsys hg rfl hk hq (by simp) ?_ hrun
      rintro E d m m' tag rfl hw hz hm hout hgen hslot hb
      exact hout.basketBacked hs ht hw hf hno hc hz hn hr hslot hm hgen hb
    constructor
    · intro r b hr hl idx hlt
      apply (hb r b idx hr).funded _ _
      rw [owed, if_pos hl, basketDue, if_pos hlt]
    · intro r b idx v b' hr hv hle
      refine (hb r b idx hr).empty ?_ v b' hv
      rw [owed, basketDue, if_neg (Nat.not_lt.mpr hle), ite_self]
    · intro r b idx v b' hr hv hl
      refine (hb r b idx hr).empty ?_ v b' hv
      rw [owed, if_neg hl]

section
open Xete.Market Xete.Reference

/-- After a swap, a bid on it and a basket. -/
theorem escrows_solvent_opened :
    ∃ m₁ m₂ m₃ : Machine, (openSwapCall 100 50).result start = some m₁ ∧
    (makeOfferCall 40).result m₁.ledger = some m₂ ∧ openBearerCall.result m₂.ledger = some m₃ ∧
    (∀ offerer nonce, nonce.length = 32 → OfferSolvent market offerer nonce m₃.ledger) ∧
      ∀ maker nonce, nonce.length = 32 → BasketSolvent market maker nonce m₃.ledger := by
  have h : (((openSwapCall 100 50).result start).any fun m₁ =>
      ((makeOfferCall 40).result m₁.ledger).any fun m₂ =>
        (openBearerCall.result m₂.ledger).any fun m₃ =>
        decide (GenuineTokens (m₁.trace.map Event.act)) &&
          (decide (GenuineTokens (m₂.trace.map Event.act)) &&
            decide (GenuineTokens (m₃.trace.map Event.act)))) = true := by
    decide +kernel
  simp only [Option.any_eq_true, Bool.and_eq_true, decide_eq_true_eq] at h
  obtain ⟨m₁,h₁,m₂,h₂,m₃,h₃,hg₁,hg₂,hg₃⟩ := h
  have hstep : ∀ {c : Call} {s : Ledger} {m : Machine}, c.On market → ¬c.env.signed zeroKey →
      c.result s = some m → GenuineTokens (m.trace.map Event.act) →
        Run market (Solid market) s m.ledger := by
    intro c s m ho hz hr hgen
    refine .single ⟨.call c,.call c s m ho hr,keyed_of hz,?_,unseized_call⟩
    rwa [Action.acts, hr]
  have hrun : Run market (Solid market) start m₃.ledger :=
    ((hstep (sees_on _ _ _ _ (by decide)) (by decide) h₁ hg₁).trans
      (hstep (sees_on _ _ _ _ (by decide)) (by decide) h₂ hg₂)).trans
      (hstep (sees_on _ _ _ _ (by decide)) (by decide) h₃ hg₃)
  exact ⟨m₁,m₂,m₃,h₁,h₂,h₃,escrows_solvent market_systemRules market_tokenRules market_confined
    market_noSeizure market_collisionFree market_apart.notSystem start_genesis hrun⟩

end

end Xete.Swap
