import XetePrograms.Swap.Listed

/-!
# Who may release the goods of a swap

The address of a swap signs for its goods in four ways: a fill that paid, an
acceptance by the maker, a cancel by the maker, and an expiry.
-/

set_option autoImplicit false

namespace Xete.Swap
open Xete.Octets Xete.Weakest Xete.Chain Xete.Token Xete.Runtime Xete.Rules

variable {E : Env} {H : Host} {m m₁ m' : Machine} {d : Bytes} {tag : UInt8} {k : Pubkey}
  {cpi : Cpi} {seeds : List Bytes} {nonce : Bytes}

/-! ## The four ways -/

def Carries : Cpi → Prop
  | .transferChecked .. => True
  | .mplTransfer .. => True
  | .coreTransfer .. => True
  | _ => False

inductive DeliversTo (E : Env) (s : Ledger) (asset k party : Pubkey) : Cpi → Prop
  | token (program source dest : Pubkey) (n : ℕ) (dec : UInt8) (h : BelongsTo s dest asset party) :
      DeliversTo E s asset k party (.transferChecked program source asset dest k n dec)
  | nft (args : MplTransfer) (source dest : Pubkey) (h : MovesOne args asset source k dest party k)
      (hd : IsAta E dest party asset) : DeliversTo E s asset k party (.mplTransfer args)
  | core (collection payer : Pubkey) :
      DeliversTo E s asset k party (.coreTransfer mplCoreId asset collection payer k party true)

structure PaidSwap (E : Env) (d : Bytes) (m m' : Machine) (k : Pubkey) (r : RecordKeys)
    (dec : UInt8) :
    Prop where
  record : r.record = k
  signed : E.signed r.taker
  admitted : keyAt (m.ledger k).data sTaker = zeroKey ∨ keyAt (m.ledger k).data sTaker = r.taker
  live : E.clock < i64At (m.ledger k).data sExpiry
  wantMint : keyAt (m.ledger k).data sWantMint = r.wantMint
  makerWant : BelongsTo m.ledger r.makerWant r.wantMint (keyAt (m.ledger k).data sMaker)
  tokenProg : IsTokenProgram r.tokenProg ∧ (m.ledger r.wantMint).owner = r.tokenProg
  fee : FeePaid E m.ledger r.config r.feeAta r.wantMint (u64At (m.ledger k).data sWantAmt)
    (byteAt (slice d 0 32) 0)
  paid : priceActs r.tokenProg r.takerWant r.wantMint r.feeAta r.makerWant r.taker
    (u64At (m.ledger k).data sWantAmt) (feeAt m.ledger r.config (u64At (m.ledger k).data sWantAmt))
    dec none <+: m'.trace.map Event.act

structure BidFor (E : Env) (s : Ledger) (k offer offerer : Pubkey) : Prop where
  isOffer : IsOffer E s offer
  target : keyAt (s offer).data oSwap = k
  offerer : keyAt (s offer).data oOfferer = offerer

inductive Release where
  | fill
  | accept
  | cancel
  | expire
  deriving DecidableEq

def Release.tags : Release → List UInt8
  | fill => [1,19,23]
  | accept => [5]
  | cancel => [2,20,24]
  | expire => [3,21,25]

/-- What entitles the call to release the goods of the record at `k`, and whom
an invocation `cpi` that carries them delivers them to. -/
def Release.Entitled (E : Env) (d : Bytes) (m m' : Machine) (k : Pubkey) (cpi : Cpi) :
    Release → Prop
  | fill => ∃ r dec, PaidSwap E d m m' k r dec
  | accept => E.signed (keyAt (m.ledger k).data sMaker) ∧
    E.clock < i64At (m.ledger k).data sExpiry ∧
      ∃ offer offerer, BidFor E m.ledger k offer offerer ∧
        (Carries cpi → DeliversTo E m.ledger (keyAt (m.ledger k).data sGiveMint) k offerer cpi)
  | cancel => E.signed (keyAt (m.ledger k).data sMaker) ∧ (Carries cpi →
      DeliversTo E m.ledger (keyAt (m.ledger k).data sGiveMint) k
        (keyAt (m.ledger k).data sMaker) cpi)
  | expire => i64At (m.ledger k).data sExpiry ≤ E.clock ∧ (Carries cpi →
      DeliversTo E m.ledger (keyAt (m.ledger k).data sGiveMint) k
        (keyAt (m.ledger k).data sMaker) cpi)

/-- The call with the tag releases the goods of the live record at `k`, and
consumes the record. -/
structure Release.Holds (E : Env) (tag : UInt8) (d : Bytes) (m m' : Machine) (k maker : Pubkey)
    (nonce : Bytes) (cpi : Cpi) (r : Release) : Prop where
  tag : tag ∈ r.tags
  live : (Place.swap maker nonce).Holds (m.ledger k).data
  entitled : r.Entitled E d m m' k cpi
  wiped : Wiped E.host (m'.ledger k)

/-- No instruction releases in two ways. -/
theorem Release.tags_disjoint {r r' : Release} (h : tag ∈ r.tags) (h' : tag ∈ r'.tags) :
    r = r' := by
  have hall : ∀ r r' : Release, (∃ t ∈ r.tags, t ∈ r'.tags) → r = r' := by
    intro r r'
    cases r <;> cases r' <;> decide
  exact hall r r' ⟨tag,h,h'⟩

/-! ## Fills -/

theorem royaltyActs_free (tokenProg source mint authority : Pubkey) (dec : UInt8)
    (parts : List (AccountInfo × ℕ)) (h : (parts.map Prod.snd).sum = 0) :
    royaltyActs tokenProg source mint authority dec parts = [] := by
  rw [royaltyActs, List.flatMap_eq_nil_iff]
  intro q hq
  have hz : q.2 = 0 := List.sum_eq_zero_iff_forall_eq_nat.mp h _ (List.mem_map_of_mem hq)
  rw [if_neg (by omega)]

/-- A payment without a royalty stance is a plain one. -/
theorem PaidWant.plain {k : PriceKeys} {price maxWant : ℕ} {shardSeed : UInt8} {p : Payment}
    (h : PaidWant E m m' k price maxWant shardSeed p) (hp : p.mode = royaltyNone) (fee : ℕ) :
    royaltyPriceActs k price fee p = priceActs k.tokenProg k.takerWant k.wantMint k.feeAta
      k.makerWant k.taker price fee p.dec none := by
  rcases h.royalty with ⟨-,ht⟩ | ⟨hne,-⟩
  · have htot := h.total
    rw [ht] at htot
    rw [royaltyPriceActs, royaltyActs_free _ _ _ _ _ _ htot, ht, List.append_nil]
    rfl
  · exact (hne hp).elim

theorem PaidRecord.paidSwap {r : RecordKeys} {p : Payment} (h : PaidRecord E d m m₁ r p)
    (hp : p.mode = royaltyNone) (hpre : paidActs m r p <+: m'.trace.map Event.act) :
    PaidSwap E d m m' r.record r p.dec where
  record := rfl
  signed := h.signed
  admitted := h.fillable.2.2.2.2.2
  live := h.fillable.2.2.2.2.1
  wantMint := h.fillable.2.2.2.1
  makerWant := by
    rw [h.maker]
    exact h.makerWant
  tokenProg := ⟨h.tokenProg,h.wantOwner⟩
  fee := h.paid.fee
  paid := by
    rw [paidActs, h.paid.plain hp] at hpre
    exact hpre

/-- A fill whose address `k` signs after the payment releases the goods. -/
theorem PaidRecord.releases {r : RecordKeys} {p : Payment} {rest : List Act} {maker : Pubkey}
    {signer : List Bytes} (hw : Wellformed E) (hf : Confined E.host) (hc : E.host.CollisionFree)
    (h : PaidRecord E d m m₁ r p) (hd : Did E (rest ++ [.close r.record r.maker]) m₁ m')
    (hm : m.trace = []) (ha : E.host.createProgramAddress signer E.programId = some r.record)
    (hsigner : signer = bumped (swapSeeds r.maker (slice d 0 32))
      (byteAt (m.ledger r.record).data sBump))
    (hs : ∀ j, SignsIn E rest j → E.host.createProgramAddress signer E.programId = some j)
    (ht : ∀ j, ¬TouchedIn rest j) (htag : tag ∈ Release.fill.tags)
    (hmode : byteAt (m.ledger r.record).data sRoyaltyMode = royaltyNone → p.mode = royaltyNone)
    (hk : (Place.swap maker nonce).At E.host k)
    (hslot : Slot E.host (.swap maker nonce) (m.ledger k))
    (hsig : SignedBy E (m'.trace.map Event.act) k cpi seeds) :
    Release.Holds E tag d m m' k maker nonce cpi .fill := by
  have hacts : m'.trace.map Event.act = paidActs m r p ++ (rest ++ [.close r.record r.maker]) := by
    rw [did_trace _ _ _ hd, did_trace _ _ _ h.paid.did, hm]
    rfl
  have hsg : SignsIn E rest k := by
    have hk := hsig.signs
    rw [hacts, signsIn_append, signsIn_append] at hk
    exact (hk.resolve_left (h.idle.1 k)).resolve_right (signsIn_close _ _ _)
  have hrec : r.record = k := address_unique ha (hs k hsg)
  subst hrec
  have hat : (Place.swap r.maker (slice d 0 32)).At E.host r.record := ⟨h.nonce,_,hsigner ▸ ha⟩
  have hplace := hat.inj hc hk
  rw [Place.swap.injEq] at hplace
  obtain ⟨rfl,rfl⟩ := hplace
  have hlive := h.holds hw.notSystem rfl hslot
  have hst : Stores E r.record (m.ledger r.record).data m₁ :=
    Stores.did hw hf ⟨h.owner,rfl⟩ h.paid.did (h.idle.2 _)
  have hend := close_wipes hw hf hd (ht _) (touchedIn_nil _) hst.1
  exact
    { tag := htag
      live := hlive
      entitled := ⟨r,p.dec,h.paidSwap (hmode hlive.2) (hacts ▸ List.prefix_append _ _)⟩
      wiped := ⟨hend.1,by rw [hend.2, zeros_length]⟩ }

/-! ## Refunds -/

/-- A refund that signs at the place of a swap finds its live record. -/
theorem refund_live {maker recMaker rec : Pubkey} {nonce' : Bytes} (hsys : E.programId ≠ systemId)
    (hc : E.host.CollisionFree) (ho : (m.ledger rec).owner = E.programId)
    (hmk : keyAt (m.ledger rec).data sMaker = recMaker)
    (hat : (Place.swap recMaker nonce').At E.host rec) (hrec : rec = k)
    (hk : (Place.swap maker nonce).At E.host k)
    (hslot : Slot E.host (.swap maker nonce) (m.ledger k)) :
    recMaker = maker ∧ nonce' = nonce ∧ (Place.swap maker nonce).Holds (m.ledger k).data := by
  subst hrec
  have hplace := hat.inj hc hk
  rw [Place.swap.injEq] at hplace
  obtain ⟨rfl,rfl⟩ := hplace
  refine ⟨rfl,rfl,?_⟩
  cases hslot with
  | vacant hso _ => exact (hsys (ho.symm.trans hso)).elim
  | closed _ hd hz =>
    rw [hd, keyAt_zeros] at hmk
    exact (hz (hmk ▸ rfl)).elim
  | live _ hh _ _ => exact hh

/-- What the address of a swap signed in a refund is among the acts before the close. -/
theorem refund_signed {pre : List Act} (mid : List Act) {rec dest : Pubkey} (hi : Idle E pre)
    (hd : Did E (pre ++ (mid ++ [.close rec dest])) m m') (hm : m.trace = [])
    (hsig : SignedBy E (m'.trace.map Event.act) k cpi seeds) :
    .invoke cpi (some seeds) ∈ mid := by
  rw [did_trace _ _ _ hd, hm, List.map_nil, List.nil_append] at hsig
  have hmem := hsig.mem
  rcases List.mem_append.mp hmem with hmem | hmem
  · exact (hi.1 k ⟨cpi,seeds,hmem,hsig.address⟩).elim
  · rcases List.mem_append.mp hmem with hmem | hmem
    · exact hmem
    · simp at hmem

theorem delist_belongs (hs : SystemRules E.host) {maker feeWallet a mint owner : Pubkey} {fee : ℕ}
    (hd : Did E (delistActs maker feeWallet fee) m m₁) (h : BelongsTo m₁.ledger a mint owner) :
    BelongsTo m.ledger a mint owner := by
  unfold delistActs at hd
  split at hd
  · obtain ⟨s,he,hm⟩ := hd
    simp only [Act.effect] at he
    split at he
    · have ha := (hs.transfer _ _ _ _ _ he a).2.1
      rw [did_nil] at hm
      rw [hm, BelongsTo, next_ledger, ha] at h
      exact h
    · cases he
  · rw [did_nil] at hd
    rwa [hd] at h

theorem RefundedSwap.delivers {keys : SwapRefundKeys} {mintIdx tokenIdx : ℕ} {pre : List Act}
    {dec : UInt8} (h : RefundedSwap E d m m' keys mintIdx tokenIdx pre dec) (hi : Idle E pre)
    (hm : m.trace = [])
    (hb : ∀ m₁, Did E pre m m₁ → BelongsTo m₁.ledger keys.makerGive keys.giveMint keys.maker →
      BelongsTo m.ledger keys.makerGive keys.giveMint keys.maker)
    (hsig : SignedBy E (m'.trace.map Event.act) k cpi seeds) :
    keys.swap = k ∧ (Carries cpi → DeliversTo E m.ledger (keyAt (m.ledger k).data sGiveMint) k
      (keyAt (m.ledger k).data sMaker) cpi) := by
  have hmem := refund_signed [_,_] hi h.did hm hsig
  have haddr := hsig.address
  obtain ⟨m₁,hd,hbel⟩ := h.makerGive
  simp only [transferAct, closeAct, List.mem_cons, List.not_mem_nil, or_false, Act.invoke.injEq,
    Option.some.injEq] at hmem
  rcases hmem with ⟨rfl,rfl⟩ | ⟨rfl,rfl⟩
  · obtain rfl := address_unique h.address haddr
    refine ⟨rfl,fun _ => ?_⟩
    rw [h.giveMint, h.maker]
    exact .token _ _ _ _ _ (hb m₁ hd hbel)
  · exact ⟨address_unique h.address haddr,fun hcar => hcar.elim⟩

theorem RefundedSwap.releases {keys : SwapRefundKeys} {mintIdx tokenIdx : ℕ} {pre : List Act}
    {dec : UInt8} {maker : Pubkey} (hw : Wellformed E) (hf : Confined E.host)
    (hc : E.host.CollisionFree) (h : RefundedSwap E d m m' keys mintIdx tokenIdx pre dec)
    (hi : Idle E pre) (hn : d.length = 32) (hrec : keys.swap = k)
    (hk : (Place.swap maker nonce).At E.host k)
    (hslot : Slot E.host (.swap maker nonce) (m.ledger k)) :
    keyAt (m.ledger k).data sMaker = keys.maker ∧ (Place.swap maker nonce).Holds (m.ledger k).data ∧
      Wiped E.host (m'.ledger k) := by
  subst hrec
  obtain ⟨-,-,hlive⟩ := refund_live hw.notSystem hc h.isSwap.owner h.maker ⟨hn,_,h.address⟩
    rfl hk hslot
  have hd : Did E ((pre ++
    [transferAct keys.tokenProg keys.vault keys.giveMint keys.makerGive keys.swap
      (u64At (m.ledger keys.swap).data sGiveAmt) dec
        (some (swapSigner keys.maker (m.ledger keys.swap).data d)),
    closeAct keys.tokenProg keys.vault keys.maker keys.swap
      (swapSigner keys.maker (m.ledger keys.swap).data d)]) ++ .close keys.swap keys.maker :: []) m
        m' := by
    rw [List.append_assoc]
    exact h.did
  have hend := close_wipes hw hf hd (by simp [transferAct, closeAct, hi.2]) (touchedIn_nil _)
    h.isSwap.owner
  exact ⟨h.maker,hlive,hend.1,by rw [hend.2, zeros_length]⟩

/-- A release of an NFT or a Core asset to the maker by the one act `move`. -/
theorem ReleasedSwap.releases {keys : ReleaseKeys} {pre : List Act} {move : Cpi} {maker : Pubkey}
    (hw : Wellformed E) (hf : Confined E.host) (hc : E.host.CollisionFree)
    (h : ReleasedSwap E d m keys) (hi : Idle E pre) (hn : d.length = 32)
    (hd : Did E (pre ++ [.invoke move (some (swapSigner keys.maker (m.ledger keys.swap).data d)),
      .close keys.swap keys.maker]) m m') (hm : m.trace = [])
    (hsig : SignedBy E (m'.trace.map Event.act) k cpi seeds)
    (hk : (Place.swap maker nonce).At E.host k)
    (hslot : Slot E.host (.swap maker nonce) (m.ledger k)) :
    keys.swap = k ∧ cpi = move ∧ (Place.swap maker nonce).Holds (m.ledger k).data ∧
      Wiped E.host (m'.ledger k) := by
  have hmem := refund_signed [_] hi hd hm hsig
  rw [List.mem_singleton, Act.invoke.injEq, Option.some.injEq] at hmem
  obtain ⟨rfl,rfl⟩ := hmem
  obtain rfl := address_unique h.address hsig.address
  obtain ⟨-,-,hlive⟩ := refund_live hw.notSystem hc h.isSwap.owner h.maker ⟨hn,_,h.address⟩
    rfl hk hslot
  rw [List.append_cons] at hd
  have hend := close_wipes hw hf hd (by simp [hi.2]) (touchedIn_nil _) h.isSwap.owner
  exact ⟨rfl,rfl,hlive,hend.1,by rw [hend.2, zeros_length]⟩

/-! ## Acceptance -/

theorem AcceptedOffer.releases {keys : AcceptKeys} {giveDec wantDec : UInt8} {maker : Pubkey}
    (hw : Wellformed E) (hf : Confined E.host) (hc : E.host.CollisionFree)
    (h : AcceptedOffer E d m m' keys giveDec wantDec) (hm : m.trace = [])
    (hsig : SignedBy E (m'.trace.map Event.act) k cpi seeds)
    (hk : (Place.swap maker nonce).At E.host k)
    (hslot : Slot E.host (.swap maker nonce) (m.ledger k)) :
    Release.Holds E 5 d m m' k maker nonce cpi .accept := by
  have hsn : (slice d 0 32).length = 32 := slice_length _ _ _ (by have := h.length; omega)
  have hon : (slice d 32 32).length = 32 := slice_length _ _ _ (by have := h.length; omega)
  obtain ⟨hs,ho⟩ := h.signers hw
  have hsat : (Place.swap keys.maker (slice d 0 32)).At E.host keys.swap := ⟨hsn,_,hs⟩
  have hoat : (Place.offer keys.offerer (slice d 32 32)).At E.host keys.offer := ⟨hon,_,ho⟩
  have hnot : E.host.createProgramAddress (offerSigner keys.offerer (m.ledger keys.offer).data
      (slice d 32 32)) E.programId ≠ some k := fun hko => by
    have hat : (Place.offer keys.offerer (slice d 32 32)).At E.host k := ⟨hon,_,hko⟩
    cases hat.inj hc hk
  have hd := h.did
  rw [acceptActs_eq] at hd
  have haddr := hsig.address
  have hmem := hsig.mem
  rw [did_trace _ _ _ hd, hm, List.map_nil, List.nil_append, escrowActs] at hmem
  have hmem' : .invoke cpi (some seeds) ∈ [transferAct keys.tokenProg keys.swapVault keys.giveMint
      keys.offererGive keys.swap (u64At (m.ledger keys.swap).data sGiveAmt) giveDec
        (some (swapSigner keys.maker (m.ledger keys.swap).data (slice d 0 32))),
      closeAct keys.tokenProg keys.swapVault keys.maker keys.swap
        (swapSigner keys.maker (m.ledger keys.swap).data (slice d 0 32))] := by
    rw [List.append_assoc, List.mem_append] at hmem
    rcases hmem with hmem | hmem
    · exact (hnot (signsIn_priceActs ⟨cpi,seeds,hmem,haddr⟩)).elim
    · simp only [transferAct, closeAct, List.cons_append, List.nil_append, List.mem_cons,
        List.not_mem_nil, or_false, Act.invoke.injEq, Option.some.injEq, reduceCtorEq] at hmem ⊢
      rcases hmem with hmem | ⟨-,rfl⟩ | hmem
      · exact .inl hmem
      · exact (hnot haddr).elim
      · exact .inr hmem
  have hrec : keys.swap = k ∧
    (Carries cpi → DeliversTo E m.ledger keys.giveMint k keys.offerer cpi) := by
    simp only [transferAct, closeAct, List.mem_cons, List.not_mem_nil, or_false, Act.invoke.injEq,
      Option.some.injEq] at hmem'
    rcases hmem' with ⟨rfl,rfl⟩ | ⟨rfl,rfl⟩
    · obtain rfl := address_unique hs haddr
      exact ⟨rfl,fun _ => .token _ _ _ _ _ h.offererGive⟩
    · exact ⟨address_unique hs haddr,fun hcar => hcar.elim⟩
  obtain ⟨rfl,hdel⟩ := hrec
  obtain ⟨-,-,hlive⟩ := refund_live hw.notSystem hc h.isSwap.owner h.maker hsat rfl hk hslot
  rw [List.append_cons] at hd
  have hend := close_wipes hw hf hd
    (by
      rw [touchedIn_append]
      simpa [touchedIn_escrowActs] using (hoat.ne hc hsat (by simp)).symm)
    (touchedIn_nil _) h.isSwap.owner
  exact
    { tag := by decide
      live := hlive
      entitled := ⟨by rw [h.maker]; exact h.signed,h.swapLive,keys.offer,keys.offerer,
        ⟨h.isOffer,h.target,h.offerer⟩,by rw [h.giveMint]; exact hdel⟩
      wiped := ⟨hend.1,by rw [hend.2, zeros_length]⟩ }

/-! ## All instructions -/

theorem SignedBy.created {payer acct owner : Pubkey} {space : ℕ} {signer : List Bytes}
    {as : List Act} (h : SignedBy E as k cpi seeds)
    (hnew : E.host.createProgramAddress signer E.programId = some acct)
    (heq : Act.invoke cpi (some seeds) = createAct E payer acct space owner signer) : False := by
  have hused := h.used
  rw [heq] at hused
  rw [createAct, Act.invoke.injEq, Option.some.injEq] at heq
  obtain ⟨-,rfl⟩ := heq
  exact hused (address_unique hnew h.address)

/-- The handlers that open a swap use its signature only to create it. -/
theorem OpenedSwap.unused {keys : SwapKeys} {bump vbump dec : UInt8} {maker : Pubkey}
    (hc : E.host.CollisionFree) (h : OpenedSwap E d m m' keys bump vbump dec) (hm : m.trace = [])
    (hk : (Place.swap maker nonce).At E.host k) :
    ¬SignedBy E (m'.trace.map Event.act) k cpi seeds := by
  intro hsig
  rw [did_trace _ _ _ h.did, hm] at hsig
  have hmem := hsig.mem
  simp only [List.map_nil, List.nil_append, openSwapActs, initAct, transferAct, List.mem_cons,
    List.not_mem_nil, or_false, Act.invoke.injEq, reduceCtorEq, and_false, false_or] at hmem
  rcases hmem with heq | heq
  · exact hsig.created (E.host.find_create _ _ _ _ h.slot.address) heq
  · rw [createAct, Act.invoke.injEq, Option.some.injEq] at heq
    obtain ⟨-,rfl⟩ := heq
    have hat : (Place.vault keys.maker (slice d 0 32)).At E.host k :=
      ⟨h.slot.nonce_length,vbump,hsig.address⟩
    cases hat.inj hc hk

theorem OpenedPnft.unused {keys : NftKeys} {args : MplTransfer} {bump : UInt8}
    (h : OpenedPnft E d m m' keys args bump) (hm : m.trace = []) :
    ¬SignedBy E (m'.trace.map Event.act) k cpi seeds := by
  intro hsig
  rw [did_trace _ _ _ h.did, hm] at hsig
  have hmem := hsig.mem
  simp only [List.map_nil, List.nil_append, openPnftActs, List.mem_cons, List.not_mem_nil, or_false,
    Act.invoke.injEq, reduceCtorEq, and_false] at hmem
  exact hsig.created (E.host.find_create _ _ _ _ h.slot.address) hmem

theorem OpenedCore.unused {keys : NftKeys} {collection : Pubkey} {bump : UInt8}
    (h : OpenedCore E d m m' keys collection bump) (hm : m.trace = []) :
    ¬SignedBy E (m'.trace.map Event.act) k cpi seeds := by
  intro hsig
  rw [did_trace _ _ _ h.did, hm] at hsig
  have hmem := hsig.mem
  simp only [List.map_nil, List.nil_append, List.mem_cons, List.not_mem_nil, or_false,
    Act.invoke.injEq, reduceCtorEq, and_false] at hmem
  exact hsig.created (E.host.find_create _ _ _ _ h.slot.address) hmem

theorem cancel_not_swap (h : tag ∈ ([28,32,36] : List UInt8)) : tag ∉ swapTags := by
  simp only [List.mem_cons, List.not_mem_nil, or_false] at h
  rcases h with rfl | rfl | rfl <;> decide

theorem expire_not_swap (h : tag ∈ ([29,33,37] : List UInt8)) : tag ∉ swapTags := by
  simp only [List.mem_cons, List.not_mem_nil, or_false] at h
  rcases h with rfl | rfl | rfl <;> decide

theorem settle_not_swap (h : tag ∈ ([38,39,40] : List UInt8) ∨ tag ∈ ([41,42,43] : List UInt8)) :
    tag ∉ swapTags := by
  simp only [List.mem_cons, List.not_mem_nil, or_false] at h
  rcases h with (rfl | rfl | rfl) | rfl | rfl | rfl <;> decide

theorem Outcome.releases {maker : Pubkey} (hs : SystemRules E.host) (hw : Wellformed E)
    (hf : Confined E.host) (hc : E.host.CollisionFree) (h : Outcome E d m m' tag)
    (hm : m.trace = []) (hsig : SignedBy E (m'.trace.map Event.act) k cpi seeds)
    (hk : (Place.swap maker nonce).At E.host k)
    (hslot : Slot E.host (.swap maker nonce) (m.ledger k)) :
    ∃ r, Release.Holds E tag d m m' k maker nonce cpi r := by
  have htag : tag ∈ swapTags := h.maySign hc hm hk hsig.signs
  cases h with
  | openedSwap _ _ _ _ h => exact (h.unused hc hm hk hsig).elim
  | openedPnft _ _ _ h => exact (h.unused hm hsig).elim
  | openedCore _ _ _ h => exact (h.unused hm hsig).elim
  | filledSwap _ r v giveDec _ h =>
    have hd : Did E ([transferAct v.giveTokenProg v.vault r.giveMint v.takerGive r.record
        (u64At (m.ledger r.record).data sGiveAmt) giveDec
          (some (swapSigner r.maker (m.ledger r.record).data (slice d 0 32))),
      closeAct v.giveTokenProg v.vault r.maker r.record
        (swapSigner r.maker (m.ledger r.record).data (slice d 0 32))] ++
        [.close r.record r.maker]) _ m' := h.did
    exact ⟨.fill,h.toPaidRecord.releases hw hf hc hd hm h.address rfl
      (fun j hj => by simpa [transferAct, closeAct] using hj)
      (fun j => by simp [transferAct, closeAct]) (by decide) (fun _ => rfl) hk hslot hsig⟩
  | filledPnft _ r _ _ _ args h =>
    have hd : Did E ([.invoke (.mplTransfer args) (some (swapSigner r.maker (m.ledger r.record).data
      (slice d 0 32)))] ++ [.close r.record r.maker]) _ m' := h.did
    exact ⟨.fill,h.toPaidRecord.releases hw hf hc hd hm h.address rfl
      (fun j hj => by simpa using hj) (fun j => by simp) (by decide)
      (fun hmode => h.mode.trans hmode) hk hslot hsig⟩
  | filledCore _ r _ collection h =>
    have hd : Did E ([.invoke
      (.coreTransfer mplCoreId r.giveMint collection r.taker r.record r.taker
      true) (some (swapSigner r.maker (m.ledger r.record).data (slice d 0 32)))] ++
        [.close r.record r.maker]) _ m' := h.did
    exact ⟨.fill,h.toPaidRecord.releases hw hf hc hd hm h.address rfl
      (fun j hj => by simpa using hj) (fun j => by simp) (by decide) (fun _ => rfl) hk hslot hsig⟩
  | acceptedOffer _ _ _ h => exact ⟨.accept,h.releases hw hf hc hm hsig hk hslot⟩
  | cancelledSwap keys feeWallet fee _ hl hsg h =>
    have hi : Idle E (delistActs keys.maker feeWallet fee) := idle_delistActs _ _ _
    obtain ⟨hrec,hdel⟩ := h.delivers hi hm (fun _ hd hb => delist_belongs hs hd hb) hsig
    obtain ⟨hmk,hlive,hwiped⟩ := h.releases hw hf hc hi hl hrec hk hslot
    exact ⟨.cancel,by decide,hlive,⟨by rw [hmk]; exact hsg,hdel⟩,hwiped⟩
  | expiredSwap _ _ hl hx h =>
    obtain ⟨hrec,hdel⟩ :=
      h.delivers idle_nil hm (fun _ hd hb => by rw [did_nil] at hd; rwa [hd] at hb) hsig
    obtain ⟨-,hlive,hwiped⟩ := h.releases hw hf hc idle_nil hl hrec hk hslot
    exact ⟨.expire,by decide,hlive,⟨hrec ▸ hx,hdel⟩,hwiped⟩
  | cancelledPnft keys vault dest args _ h =>
    obtain ⟨rfl,rfl,hlive,hwiped⟩ := h.toReleasedSwap.releases hw hf hc h.idle h.length h.did
      hm hsig hk hslot
    refine ⟨.cancel,by decide,hlive,⟨by rw [h.maker]; exact h.signed,fun _ => ?_⟩,hwiped⟩
    rw [h.maker, h.mint, ← h.back]
    exact .nft args vault dest h.move h.target
  | expiredPnft keys vault dest args h =>
    obtain ⟨rfl,rfl,hlive,hwiped⟩ := h.toReleasedSwap.releases hw hf hc idle_nil h.length h.did
      hm hsig hk hslot
    refine ⟨.expire,by decide,hlive,⟨h.due,fun _ => ?_⟩,hwiped⟩
    rw [h.maker, h.mint, ← h.back]
    exact .nft args vault dest h.move h.target
  | cancelledCore keys collection payer _ h =>
    obtain ⟨rfl,rfl,hlive,hwiped⟩ := h.toReleasedSwap.releases hw hf hc h.idle h.length h.did
      hm hsig hk hslot
    refine ⟨.cancel,by decide,hlive,⟨by rw [h.maker]; exact h.signed,fun _ => ?_⟩,hwiped⟩
    rw [h.maker, h.mint, ← h.back]
    exact .core collection payer
  | expiredCore keys collection payer h =>
    obtain ⟨rfl,rfl,hlive,hwiped⟩ := h.toReleasedSwap.releases hw hf hc idle_nil h.length h.did
      hm hsig hk hslot
    refine ⟨.expire,by decide,hlive,⟨h.due,fun _ => ?_⟩,hwiped⟩
    rw [h.maker, h.mint, ← h.back]
    exact .core collection payer
  | cancelledListing _ ht _ _ _ _ => exact (cancel_not_swap ht htag).elim
  | expiredListing _ ht _ _ _ => exact (expire_not_swap ht htag).elim
  | sold _ ht _ => exact (settle_not_swap (.inl ht) htag).elim
  | bought _ ht _ => exact (settle_not_swap (.inr ht) htag).elim
  | _ => exact absurd htag (by decide)

/-- In every state of every run: whenever the address of a swap signs for
anything but its own creation, the call releases the goods of the live record
there in exactly one of the four ways. -/
theorem release_authorised {s₀ : Ledger} (hs : SystemRules H) (hf : Confined H)
    (hc : H.CollisionFree) (hsys : H.programId ≠ systemId) (hg : Genesis H s₀) {s : Ledger}
    (hrun : Run H Keyed s₀ s) {c : Call} (ho : c.On H) (hdata : c.data = tag :: d)
    (hr : c.result s = some m) {maker : Pubkey} (hk : (Place.swap maker nonce).At H k)
    (hsig : SignedBy c.env (m.trace.map Event.act) k cpi seeds) :
    ∃! r, Release.Holds c.env tag d ⟨s,[]⟩ m k maker nonce cpi r := by
  obtain ⟨tag',d',hd',hout⟩ := Call.outcome hs hf ho hr
  rw [hdata] at hd'
  cases hd'
  have hslot : Slot H (.swap maker nonce) (s k) := run_slot hs hf hc hsys hg hrun rfl hk
  obtain ⟨rfl,hw⟩ := ho
  obtain ⟨r,hrel⟩ := hout.releases hs hw hf hc rfl hsig hk hslot
  exact ⟨r,hrel,fun r' h' => Release.tags_disjoint h'.tag hrel.tag⟩

section
open Xete.Market Xete.Reference

/-- The maker cancels a swap, and the goods go back. -/
theorem release_authorised_cancelled :
    ∃ m₁ m₂ : Machine, (openSwapCall 100 50).result start = some m₁ ∧
    cancelSwapCall.result m₁.ledger = some m₂ ∧
    ∃! r, Release.Holds cancelSwapCall.env 2 Market.nonce ⟨m₁.ledger,[]⟩ m₂ swapKey maker
      Market.nonce (.transferChecked splTokenId vaultKey mintA makerA swapKey 100 0) r := by
  have h : (((openSwapCall 100 50).result start).any fun m₁ =>
      (cancelSwapCall.result m₁.ledger).any fun m₂ =>
        decide (.invoke (.transferChecked splTokenId vaultKey mintA makerA swapKey 100 0)
          (some (bumped (swapSeeds maker Market.nonce) 255)) ∈ m₂.trace.map Event.act)) = true := by
    decide +kernel
  simp only [Option.any_eq_true, decide_eq_true_eq] at h
  obtain ⟨m₁,h₁,m₂,h₂,hmem⟩ := h
  have hrun : Run market Keyed start m₁.ledger :=
    .single ⟨_,.call _ _ _ (sees_on _ _ _ _ (by decide)) h₁,keyed_of (by decide)⟩
  exact ⟨m₁,m₂,h₁,h₂,release_authorised market_systemRules market_confined market_collisionFree
    market_apart.notSystem start_genesis hrun (sees_on _ _ _ _ (by decide)) rfl h₂
    ⟨rfl,255,by decide⟩ ⟨hmem,by decide,by decide⟩⟩

end

end Xete.Swap
