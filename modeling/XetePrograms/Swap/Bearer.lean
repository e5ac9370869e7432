import XetePrograms.Swap.Listed

/-!
# Who controls a bearer basket

The claim authority of a bearer basket passes from key to key by `rewrap`. Its
goods and its record leave only by a claim of the key that holds the authority.
-/

set_option autoImplicit false

namespace Xete.Swap
open Xete.Octets Xete.Weakest Xete.Chain Xete.Token Xete.Runtime Xete.Rules

variable {E : Env} {H : Host} {m m' : Machine} {d : Bytes} {tag : UInt8} {k : Pubkey}
  {s s' : Ledger} {a : Action}

/-! ## The uses of a basket -/

inductive BasketUse (E : Env) (d : Bytes) (m m' : Machine) (k : Pubkey) : UInt8 → Prop
  | opened (h : Vacant m.ledger k) : BasketUse E d m m' k 12
  | filled (h : byteAt (m.ledger k).data bAuthMode = authNormal) : BasketUse E d m m' k 13
  | claimed (bearer : Pubkey) (slot : SlotIs E 2 k) (signed : E.signed bearer)
      (auth : keyAt (m.ledger k).data bClaimAuth = E.host.hash bearer.bytes)
      (wiped : Wiped E.host (m'.ledger k)) : BasketUse E d m m' k 14
  | rewrapped (bearer : Pubkey) (h : Rewrapped E d m m' k bearer) : BasketUse E d m m' k 15
  | cancelled (h : byteAt (m.ledger k).data bAuthMode ≠ authBearer) : BasketUse E d m m' k 16
  | expired (h : byteAt (m.ledger k).data bAuthMode ≠ authBearer) : BasketUse E d m m' k 17

def Uses (E : Env) (as : List Act) (k : Pubkey) : Prop := SignsIn E as k ∨ TouchedIn as k

theorem Outcome.basket_tag {maker : Pubkey} {nonce : Bytes} (hc : E.host.CollisionFree)
    (h : Outcome E d m m' tag) (hm : m.trace = []) (hk : (Place.basket maker nonce).At E.host k)
    (hu : Uses E (m'.trace.map Event.act) k) : tag ∈ ([12,13,14,15,16,17] : List UInt8) := by
  rcases hu with hs | ht
  · have hsign := h.maySign hc hm hk hs
    simp only [MaySign, List.mem_cons, List.not_mem_nil, or_false] at hsign ⊢
    tauto
  · obtain ⟨as,hd,hfp⟩ := h.within
    rw [did_trace _ _ _ hd, hm] at ht
    obtain ⟨q,hq,hqk⟩ := hfp.changes k ht
    rwa [hqk.inj hc hk] at hq

/-- The record that the legs of a basket name. -/
theorem closing_names {nonce b : Bytes} {swap maker tokenProg : Pubkey} {giveBase : ℕ}
    {g : ℕ → List Act} {pre : List Act}
    (hl : GiveLegs E b swap maker tokenProg nonce giveBase g)
    (hd : Did E (pre ++ closingActs b swap maker g) m m') (hi : Idle E pre)
    (hb : IsBasket E m.ledger swap nonce) (hbe : b = (m.ledger swap).data) (hm : m.trace = [])
    (hu : Uses E (m'.trace.map Event.act) k) : k = swap := by
  subst hbe
  obtain ⟨hsign,htouch⟩ := hl.names hb.address
  rw [did_trace _ _ _ hd, hm, List.map_nil, List.nil_append, closingActs] at hu
  rcases hu with hs | ht
  · rw [signsIn_append, signsIn_append] at hs
    exact hsign k ((hs.resolve_left (hi.1 k)).resolve_right (signsIn_close _ _ _))
  · rw [touchedIn_append, touchedIn_append] at ht
    exact (touchedIn_close _ _ _).mp ((ht.resolve_left (hi.2 k)).resolve_left (htouch k))

/-- What a successful instruction that signs for or changes the basket at `k` did,
with all it checked. -/
inductive BasketEnd (E : Env) (d : Bytes) (m m' : Machine) (k : Pubkey) : UInt8 → Prop
  | opened (maker tokenProg : Pubkey) (bump : UInt8) (w g : ℕ → List Act)
      (h : OpenedBasket E d m m' maker k tokenProg bump w g) : BasketEnd E d m m' k 12
  | filled (taker maker tokenProg : Pubkey) (w g : ℕ → List Act)
      (h : FilledBasket E d m m' k taker maker tokenProg w g)
      (wiped : Wiped E.host (m'.ledger k)) : BasketEnd E d m m' k 13
  | claimed (maker tokenProg bearer : Pubkey) (g : ℕ → List Act)
      (h : ClaimedBasket E d m m' k maker tokenProg bearer g)
      (wiped : Wiped E.host (m'.ledger k)) : BasketEnd E d m m' k 14
  | rewrapped (bearer : Pubkey) (h : Rewrapped E d m m' k bearer) : BasketEnd E d m m' k 15
  | cancelled (maker tokenProg feeWallet : Pubkey) (fee : ℕ) (g : ℕ → List Act)
      (h : CancelledBasket E d m m' k maker tokenProg feeWallet fee g)
      (wiped : Wiped E.host (m'.ledger k)) : BasketEnd E d m m' k 16
  | expired (maker tokenProg : Pubkey) (g : ℕ → List Act)
      (h : ExpiredBasket E d m m' k maker tokenProg g)
      (wiped : Wiped E.host (m'.ledger k)) : BasketEnd E d m m' k 17

/-- A settled basket leaves zeros. -/
theorem closing_wipes {nonce : Bytes} {swap maker tokenProg : Pubkey} {giveBase : ℕ}
    {g : ℕ → List Act} {pre : List Act} (hw : Wellformed E) (hf : Confined E.host)
    (hl : GiveLegs E (m.ledger swap).data swap maker tokenProg nonce giveBase g)
    (hd : Did E (pre ++ closingActs (m.ledger swap).data swap maker g) m m') (hi : Idle E pre)
    (hb : IsBasket E m.ledger swap nonce) : Wiped E.host (m'.ledger swap) := by
  rw [closingActs, ← List.append_assoc] at hd
  have htouch : ¬TouchedIn (pre ++
    (List.range (byteAt (m.ledger swap).data bGiveCount).toNat).flatMap g)
      swap := by
    rw [touchedIn_append]
    exact fun ht => ht.elim (hi.2 swap) ((hl.names hb.address).2 swap)
  have hend := close_wipes hw hf hd htouch (touchedIn_nil _) hb.owner
  exact ⟨hend.1,by rw [hend.2, zeros_length]⟩

theorem Outcome.basketEnd {maker : Pubkey} {nonce : Bytes} (hw : Wellformed E)
    (hf : Confined E.host) (hc : E.host.CollisionFree) (h : Outcome E d m m' tag)
    (hm : m.trace = []) (hk : (Place.basket maker nonce).At E.host k)
    (hu : Uses E (m'.trace.map Event.act) k) : BasketEnd E d m m' k tag := by
  have htag := h.basket_tag hc hm hk hu
  cases h with
  | openedBasket _ swap _ _ _ _ h =>
    have hn := h.names hm
    have hparty : ¬∃ q : Place, q.party = none ∧ q.At E.host k := by
      rintro ⟨q,hq,hqk⟩
      rw [hqk.inj hc hk] at hq
      cases hq
    obtain rfl : k = swap := hu.elim (fun hj => (hn.signs k hj).resolve_right hparty)
      fun hj => (hn.changes k hj).resolve_right hparty
    exact .opened _ _ _ _ _ h
  | filledBasket _ _ _ _ _ _ h =>
    obtain rfl := closing_names h.giveLegs h.did h.idle h.isBasket rfl hm hu
    exact .filled _ _ _ _ _ h (closing_wipes hw hf h.giveLegs h.did h.idle h.isBasket)
  | claimedBasket _ _ _ _ _ h =>
    obtain rfl := closing_names h.giveLegs h.did idle_nil h.isBasket rfl hm hu
    exact .claimed _ _ _ _ h (closing_wipes hw hf h.giveLegs h.did idle_nil h.isBasket)
  | rewrapped swap bearer h =>
    have hk' : k = swap := by
      rw [Uses, did_trace _ _ _ h.did, hm] at hu
      simpa using hu
    subst hk'
    exact .rewrapped bearer h
  | cancelledBasket maker _ _ wallet fee _ h =>
    obtain rfl := closing_names h.giveLegs h.did (idle_delistActs _ _ _) h.isBasket rfl hm hu
    exact .cancelled _ _ _ _ _ h
      (closing_wipes hw hf h.giveLegs h.did (idle_delistActs _ _ _) h.isBasket)
  | expiredBasket _ _ _ _ h =>
    obtain rfl := closing_names h.giveLegs h.did idle_nil h.isBasket rfl hm hu
    exact .expired _ _ _ h (closing_wipes hw hf h.giveLegs h.did idle_nil h.isBasket)
  | cancelledListing _ ht _ _ _ _ => exact (tags_apart ht htag rfl).elim
  | expiredListing _ ht _ _ _ => exact (tags_apart ht htag rfl).elim
  | sold _ ht _ => exact (tags_apart ht htag rfl).elim
  | bought _ ht _ => exact (tags_apart ht htag rfl).elim
  | _ => exact absurd htag (by decide)

theorem Outcome.basketUse {maker : Pubkey} {nonce : Bytes} (hs : SystemRules E.host)
    (hw : Wellformed E) (hf : Confined E.host) (hc : E.host.CollisionFree)
    (h : Outcome E d m m' tag) (hm : m.trace = [])
    (hk : (Place.basket maker nonce).At E.host k) (hu : Uses E (m'.trace.map Event.act) k) :
    BasketUse E d m m' k tag := by
  cases h.basketEnd hw hf hc hm hk hu with
  | opened _ _ _ _ _ ho => exact .opened (did_vacant hs ho.did)
  | filled _ _ _ _ _ hb _ => exact .filled hb.normal
  | claimed _ _ bearer _ hb wiped => exact .claimed bearer hb.swapSlot hb.signed hb.auth wiped
  | rewrapped bearer hr => exact .rewrapped bearer hr
  | cancelled _ _ _ _ _ hb _ => exact .cancelled hb.normal
  | expired _ _ _ hb _ => exact .expired hb.normal

/-! ## One step -/

structure Bearer (H : Host) (maker : Pubkey) (nonce : Bytes) (a : Account) : Prop where
  owner : a.owner = H.programId
  holds : BasketHolds maker nonce a.data
  mode : byteAt a.data bAuthMode = authBearer
  lamports : 0 < a.lamports

def GoodsStay (k : Pubkey) (s s' : Ledger) : Prop :=
  ∀ v t, tokenAt s v = some t → t.authority = k → Sealed t → 0 < (s v).lamports →
    ∃ t', tokenAt s' v = some t' ∧ Grows t t' ∧ 0 < (s' v).lamports

def Unsigned (k : Pubkey) (a : Action) (s : Ledger) : Prop :=
  ∀ c m, a = .call c → c.result s = some m → ¬SignsIn c.env (m.trace.map Event.act) k

/-- What a step may do to a live bearer basket at `k`. Only a claim moves goods
with its signature; otherwise they stay where no permanent delegate seizes them. -/
inductive BearerStep (H : Host) (k : Pubkey) (a : Action) (s s' : Ledger) : Prop
  | kept (owner : (s' k).owner = H.programId) (data : (s' k).data = (s k).data)
      (lamports : 0 < (s' k).lamports) (unsigned : Unsigned k a s)
      (goods : NoSeizure H → Unseized H a s s' → GoodsStay k s s')
  | rewrapped (c : Call) (d : Bytes) (bearer : Pubkey) (ha : a = .call c) (tag : c.data = 15 :: d)
      (signed : c.env.signed bearer) (auth : keyAt (s k).data bClaimAuth = H.hash bearer.bytes)
      (fresh : slice d 32 32 ≠ zeros 32) (length : (slice d 32 32).length = 32)
      (owner : (s' k).owner = H.programId)
      (data : (s' k).data = patch (s k).data bClaimAuth (slice d 32 32))
      (lamports : 0 < (s' k).lamports) (unsigned : Unsigned k a s)
      (goods : NoSeizure H → GoodsStay k s s')
  | claimed (c : Call) (d : Bytes) (bearer : Pubkey) (ha : a = .call c) (tag : c.data = 14 :: d)
      (slot : SlotIs c.env 2 k) (signed : c.env.signed bearer)
      (auth : keyAt (s k).data bClaimAuth = H.hash bearer.bytes) (wiped : Wiped H (s' k))

theorem goodsStay_of {signed : Pubkey → Prop} (hf : Holdings H signed s s') (hk : H.IsPda k)
    (hn : ¬signed k) : GoodsStay k s s' := by
  rintro v t hv rfl hsl hl
  obtain ⟨⟨t',ht',hg⟩,hle⟩ := hf.tokens v t hv trivial hk hn hsl
  exact ⟨t',ht',hg,hl.trans_le hle⟩

theorem GoodsStay.refl (k : Pubkey) (s : Ledger) : GoodsStay k s s :=
  fun _ t hv _ hsl hl => ⟨t,hv,.refl t hsl,hl⟩

theorem goodsStay_reap (k : Pubkey) (s : Ledger) : GoodsStay k s (reap s) := by
  intro v t hv _ hsl hl
  have hv' := reap_live hl
  refine ⟨t,?_,.refl t hsl,hv' ▸ hl⟩
  rw [tokenAt_congr _ _ _ (congrArg Account.owner hv') (congrArg Account.data hv'), hv]

theorem unsigned_of {c : Call} {m : Machine} (hr : c.result s = some m)
    (h : ¬SignsIn c.env (m.trace.map Event.act) k) : Unsigned k (.call c) s := by
  rintro c' m' ⟨⟩ hr'
  obtain rfl := Option.some_inj.mp (hr.symm.trans hr')
  exact h

theorem Rewrapped.bearerStep {c : Call} {m : Machine} {bearer : Pubkey}
    (hs : SystemRules c.env.host) (hw : Wellformed c.env) (hf : Confined c.env.host)
    (hr : c.result s = some m) (hk : c.env.host.IsPda k) (hpos : 0 < (s k).lamports)
    (hdata : c.data = 15 :: d)
    (h : Rewrapped c.env d ⟨s,[]⟩ m k bearer) : BearerStep c.env.host k (.call c) s m.ledger := by
  have hst : Stores c.env k (patch (s k).data bClaimAuth (slice d 32 32)) m := by
    obtain ⟨s₁,he,rfl⟩ := h.did
    exact effect_write_stores he
  obtain ⟨-,-,hlam⟩ := did_owned hs hw hf h.owner h.did
  have hunsigned : ¬SignsIn c.env (m.trace.map Event.act) k := by
    rw [did_trace _ _ _ h.did]
    exact signsIn_write _ _ _
  exact .rewrapped c d bearer rfl hdata h.signed h.auth h.fresh
    (slice_length _ _ _ (by have := h.length; omega)) hst.1 hst.2 (hlam rfl hpos)
    (unsigned_of hr hunsigned) fun hz => goodsStay_of (ran_holdings hw hz _ h.did.ran) hk (signsIn_write _ _ _)

/-- One step keeps a live bearer basket, re-keys it by the bearer, or claims it
by the bearer. -/
theorem Step.bearer {maker : Pubkey} {nonce : Bytes} (hs : SystemRules H) (hf : Confined H)
    (hc : H.CollisionFree) (hk : (Place.basket maker nonce).At H k) (hstep : Step H a s s')
    (hb : Bearer H maker nonce (s k)) : BearerStep H k a s s' := by
  cases hstep with
  | call c _ m ho hr =>
    obtain ⟨tag,d,hdata,hout⟩ := Call.outcome hs hf ho hr
    obtain ⟨rfl,hw⟩ := ho
    by_cases hu : Uses c.env (m.trace.map Event.act) k
    · cases hout.basketUse hs hw hf hc rfl hk hu with
      | opened h => exact (hw.notSystem (hb.owner.symm.trans h.1)).elim
      | filled h => exact absurd (hb.mode.symm.trans h) (by decide)
      | claimed bearer hslot hsg hauth hwiped =>
        exact .claimed c d bearer rfl hdata hslot hsg hauth hwiped
      | rewrapped bearer h => exact h.bearerStep hs hw hf hr hk.isPda hb.lamports hdata
      | cancelled h => exact (h hb.mode).elim
      | expired h => exact (h hb.mode).elim
    · rw [Uses, not_or] at hu
      have hun : Unsigned k (.call c) s := unsigned_of hr hu.1
      obtain ⟨as,hd,-⟩ := hout.within
      rw [did_trace _ _ _ hd, List.map_nil, List.nil_append] at hu
      obtain ⟨ho,hdt,hl⟩ := (ran_frame hw hf as hd.ran).owned k hb.owner hu.2
      exact .kept ho hdt (hb.lamports.trans_le hl) hun
        fun hz _ => goodsStay_of (ran_holdings hw hz as hd.ran) hk.isPda hu.1
  | outside _ _ hfr =>
    obtain ⟨ho,hdt,hl⟩ := hfr.owned k hb.owner id
    exact .kept ho hdt (hb.lamports.trans_le hl) nofun fun _ hun => goodsStay_of (hun rfl) hk.isPda id
  | reap =>
    have he := reap_live hb.lamports
    exact .kept (he ▸ hb.owner) (congrArg Account.data he) (he ▸ hb.lamports) nofun
      fun _ _ => goodsStay_reap k s

/-! ## Runs -/

def Unclaimed (k : Pubkey) (a : Action) (_ _ : Ledger) : Prop :=
  ∀ c d, a = .call c → c.data = 14 :: d → ¬SlotIs c.env 2 k

structure SameTerms (b b' : Bytes) : Prop where
  length : b'.length = b.length
  field : ∀ off len, off+len ≤ bClaimAuth ∨ bClaimAuth+32 ≤ off → slice b' off len = slice b off len

theorem SameTerms.refl (b : Bytes) : SameTerms b b := ⟨rfl,fun _ _ _ => rfl⟩

theorem SameTerms.trans {b b' b'' : Bytes} (h : SameTerms b b') (h' : SameTerms b' b'') :
    SameTerms b b'' :=
  ⟨h'.length.trans h.length,fun off len ho => (h'.field off len ho).trans (h.field off len ho)⟩

theorem sameTerms_rekey {b auth : Bytes} (hb : b.length = basketLen) (ha : auth.length = 32) :
    SameTerms b (patch b bClaimAuth auth) where
  length := patch_length _ _ _ (by rw [hb, ha]; decide)
  field off len ho := slice_patch_disjoint b auth off len bClaimAuth (by rwa [ha])
    (by rw [hb, ha]; decide)

theorem GoodsStay.trans {s'' : Ledger} (h : GoodsStay k s s') (h' : GoodsStay k s' s'') :
    GoodsStay k s s'' := by
  intro v t hv hauth hsl hl
  obtain ⟨t',ht',hg,hl'⟩ := h v t hv hauth hsl hl
  obtain ⟨t'',ht'',hg',hl''⟩ := h' v t' ht' (hg.authority.trans hauth) hg.isSealed hl'
  exact ⟨t'',ht'',hg.trans hg',hl''⟩

structure BearerKept (H : Host) (maker : Pubkey) (nonce : Bytes) (k : Pubkey) (s s' : Ledger) :
    Prop where
  bearer : Bearer H maker nonce (s' k)
  terms : SameTerms (s k).data (s' k).data

theorem BearerStep.kept_of {maker : Pubkey} {nonce : Bytes} (hb : Bearer H maker nonce (s k))
    (hu : Unclaimed k a s s') (h : BearerStep H k a s s') :
    BearerKept H maker nonce k s s' ∧ (NoSeizure H → Unseized H a s s' → GoodsStay k s s') := by
  cases h with
  | kept ho hd hl _ hg =>
    exact ⟨⟨⟨ho,hd ▸ hb.holds,hd ▸ hb.mode,hl⟩,hd ▸ .refl _⟩,hg⟩
  | rewrapped c d bearer ha htag hsg hauth hfresh hlen ho hd hl _ hg =>
    have hterms : SameTerms (s k).data (s' k).data := by
      rw [hd]
      exact sameTerms_rekey hb.holds.length hlen
    refine ⟨⟨⟨ho,?_,?_,hl⟩,hterms⟩,fun hz _ => hg hz⟩
    · rw [hd]
      exact hb.holds.rekey hlen
    · rw [byteAt_eq_slice, hterms.field bAuthMode 1 (by decide), ← byteAt_eq_slice]
      exact hb.mode
  | claimed c d bearer ha htag hslot _ _ _ => exact (hu c d ha htag hslot).elim

theorem bearer_run {maker : Pubkey} {nonce : Bytes} (hs : SystemRules H) (hf : Confined H)
    (hc : H.CollisionFree) (hk : (Place.basket maker nonce).At H k)
    (hb : Bearer H maker nonce (s k)) (h : Run H (Unclaimed k) s s') :
    BearerKept H maker nonce k s s' := by
  refine h.invariant (P := BearerKept H maker nonce k s) (fun a s₁ s₂ hstep hu hkept => ?_) ?_
  · obtain ⟨hnext,-⟩ := (hstep.bearer hs hf hc hk hkept.bearer).kept_of hkept.bearer hu
    exact ⟨hnext.bearer,hkept.terms.trans hnext.terms⟩
  · exact ⟨hb,.refl _⟩

def Undisturbed (H : Host) (k : Pubkey) (a : Action) (s s' : Ledger) : Prop :=
  Unclaimed k a s s' ∧ Unseized H a s s'

theorem goods_run {maker : Pubkey} {nonce : Bytes} (hs : SystemRules H) (hf : Confined H)
    (hz : NoSeizure H) (hc : H.CollisionFree) (hk : (Place.basket maker nonce).At H k)
    (hb : Bearer H maker nonce (s k)) (h : Run H (Undisturbed H k) s s') : GoodsStay k s s' := by
  have hboth : Bearer H maker nonce (s' k) ∧ GoodsStay k s s' := by
    refine h.invariant (P := fun s' => Bearer H maker nonce (s' k) ∧ GoodsStay k s s')
      (fun a s₁ s₂ hstep hok ⟨hb₁,hstay⟩ => ?_) ⟨hb,.refl k s⟩
    obtain ⟨hnext,hgoods⟩ := (hstep.bearer hs hf hc hk hb₁).kept_of hb₁ hok.1
    exact ⟨hnext.bearer,hstay.trans (hgoods hz hok.2)⟩
  exact hboth.2

/-- In every reachable state a live bearer basket is kept by each step, re-keyed
by its bearer or claimed by its bearer; and while it is not claimed nothing but
its authority changes, and its goods stay where no permanent delegate seizes them. -/
theorem bearer_control {s₀ : Ledger} (hs : SystemRules H) (hf : Confined H) (hc : H.CollisionFree)
    (hsys : H.programId ≠ systemId) (hg : Genesis H s₀) {maker : Pubkey} {nonce : Bytes}
    (hk : (Place.basket maker nonce).At H k) (hrun : Run H Keyed s₀ s) (hlive : Live H (s k))
    (hmode : byteAt (s k).data bAuthMode = authBearer) :
    (∀ a s', Step H a s s' → BearerStep H k a s s') ∧
      (∀ s', Run H (Unclaimed k) s s' → BearerKept H maker nonce k s s') ∧
      (NoSeizure H → ∀ s', Run H (Undisturbed H k) s s' → GoodsStay k s s') := by
  have hslot : Slot H (.basket maker nonce) (s k) := run_slot hs hf hc hsys hg hrun rfl hk
  obtain ⟨hh,hl,-⟩ := hslot.live_of hsys hlive
  have hb : Bearer H maker nonce (s k) := ⟨hlive.1,hh,hmode,hl⟩
  exact ⟨fun a s' hstep => hstep.bearer hs hf hc hk hb,fun s' h => bearer_run hs hf hc hk hb h,
    fun hz s' h => goods_run hs hf hz hc hk hb h⟩

section
open Xete.Market Xete.Reference

def openBearerCall : Call where
  env := sees 0 maker [basketKey,systemId,splTokenId,configKey,systemId,mintA,bvaultKey,makerA]
  data := 12 :: nonce ++ [1,0] ++ le 8 100 ++ leInt 8 1000 ++ zeros 32 ++ [authBearer] ++
    (market.hash taker.bytes).bytes

theorem bearer_control_opened : ∃ m : Machine, openBearerCall.result start = some m ∧
    (∀ a s', Step market a m.ledger s' → BearerStep market basketKey a m.ledger s') ∧
    (∀ s', Run market (Unclaimed basketKey) m.ledger s' →
      BearerKept market maker nonce basketKey m.ledger s') ∧
    (NoSeizure market → ∀ s', Run market (Undisturbed market basketKey) m.ledger s' →
      GoodsStay basketKey m.ledger s') := by
  have h : (openBearerCall.result start).any (fun m =>
      decide (Live market (m.ledger basketKey)) &&
        decide (byteAt (m.ledger basketKey).data bAuthMode = authBearer)) = true := by
    decide +kernel
  simp only [Option.any_eq_true, Bool.and_eq_true, decide_eq_true_eq] at h
  obtain ⟨m,hm,hlive,hmode⟩ := h
  have hrun : Run market Keyed start m.ledger :=
    .single ⟨_,.call _ _ _ (sees_on _ _ _ _ (by decide)) hm,keyed_of (by decide)⟩
  exact ⟨m,hm,bearer_control market_systemRules market_confined market_collisionFree
    market_apart.notSystem start_genesis ⟨rfl,255,by decide⟩ hrun hlive hmode⟩

end

end Xete.Swap
