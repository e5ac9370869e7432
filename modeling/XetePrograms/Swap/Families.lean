import XetePrograms.Swap.Custody
import XetePrograms.Swap.Solvent

/-!
# One address format, three families

Swaps of tokens, of programmable NFTs and of Core assets share the address
format, the length and the layout of their records. What a record holds in
custody depends on the instruction that opened it, and a release takes what its
own family expects.
-/

set_option autoImplicit false

namespace Xete.Swap
open Xete.Octets Xete.Weakest Xete.Chain Xete.Token Xete.Runtime Xete.Rules

variable {E : Env} {H : Host} {m m₁ m' : Machine} {d nonce : Bytes} {tag : UInt8}
  {maker r v mint : Pubkey} {n : ℕ} {s s' : Ledger} {as pre rest : List Act}

inductive Family where
  | token
  | pnft
  | core
  deriving DecidableEq

def Family.opened : UInt8 → Option Family
  | 0 => some token
  | 18 => some pnft
  | 22 => some core
  | _ => none

/-! ## Custody -/

structure Stocked (s : Ledger) (v mint authority : Pubkey) (n : ℕ) : Prop where
  positive : 0 < n
  holds : ∃ t, tokenAt s v = some t ∧ t.mint = mint ∧ t.authority = authority ∧ n ≤ t.amount ∧
    Sealed t ∧ IsMint t.program s mint

structure RentExempt (s : Ledger) : Prop where
  tokens : ∀ a t, tokenAt s a = some t → 0 < (s a).lamports
  mints : ∀ p a, IsTokenProgram p → IsMint p s a → 0 < (s a).lamports
  cores : ∀ a o, coreOwner s a = some o → 0 < (s a).lamports

theorem Stocked.frame {signed : Pubkey → Prop} (h : Stocked s v mint r n)
    (hf : Holdings H signed s s') (hr : H.IsPda r) (hn : ¬signed r) : Stocked s' v mint r n := by
  obtain ⟨hpos,t,ht,rfl,rfl,hamt,hsl,him⟩ := h
  obtain ⟨⟨t',ht',hg⟩,-⟩ := hf.tokens v t ht trivial hr hn hsl
  obtain ⟨him',-⟩ := hf.mints v t ht trivial hr hn hsl (hpos.trans_le hamt) him
  exact ⟨hpos,t',ht',hg.mint,hg.authority,hamt.trans hg.amount,hg.isSealed,hg.program ▸ him'⟩

theorem Stocked.reap (h : Stocked s v mint r n) (hr : RentExempt s) :
    Stocked (reap s) v mint r n := by
  obtain ⟨hpos,t,ht,hm,ha,hamt,hsl,him⟩ := h
  have hp : IsTokenProgram t.program := by
    have hs := tokenAt_some _ _ _ ht
    exact hs.2.2.1 ▸ hs.1
  have hv := reap_live (hr.tokens v t ht)
  have hmint := reap_live (hr.mints _ _ hp him)
  refine ⟨hpos,t,?_,hm,ha,hamt,hsl,?_⟩
  · rw [tokenAt_congr _ _ _ (congrArg Account.owner hv) (congrArg Account.data hv), ht]
  · exact (isMint_congr _ _ _ _ (congrArg Account.owner hmint) (congrArg Account.data hmint)).mpr
      him

/-- The mint of a stock is no Core asset. -/
theorem Stocked.not_core (h : Stocked s v mint r n) : coreOwner s mint = none := by
  by_contra hne
  obtain ⟨o,hc⟩ := Option.ne_none_iff_exists'.mp hne
  obtain ⟨-,t,ht,-,-,-,-,him⟩ := h
  have hs := tokenAt_some _ _ _ ht
  apply coreOwner_not_token _ _ _ hc
  rw [him.1, hs.2.2.1]
  exact hs.1

def InCustody (H : Host) (maker : Pubkey) (nonce : Bytes) (r mint : Pubkey) (n : ℕ) (s : Ledger) :
    Family → Prop
  | .token => ∃ v b, H.findProgramAddress (vaultSeeds maker nonce) H.programId = some (v,b) ∧
      Stocked s v mint r n
  | .pnft => ∃ v b, H.findProgramAddress [r.bytes,splTokenId.bytes,mint.bytes] ataProgramId =
      some (v,b) ∧ Stocked s v mint r 1
  | .core => coreOwner s mint = some r

theorem InCustody.frame {signed : Pubkey → Prop} {f : Family}
    (h : InCustody H maker nonce r mint n s f) (hf : Holdings H signed s s') (hr : H.IsPda r)
    (hn : ¬signed r) : InCustody H maker nonce r mint n s' f := by
  cases f with
  | token =>
    obtain ⟨v,b,hv,hs⟩ := h
    exact ⟨v,b,hv,hs.frame hf hr hn⟩
  | pnft =>
    obtain ⟨v,b,hv,hs⟩ := h
    exact ⟨v,b,hv,hs.frame hf hr hn⟩
  | core => exact hf.cores trivial mint r h hr hn

theorem InCustody.reap {f : Family} (h : InCustody H maker nonce r mint n s f) (hr : RentExempt s) :
    InCustody H maker nonce r mint n (reap s) f := by
  cases f with
  | token =>
    obtain ⟨v,b,hv,hs⟩ := h
    exact ⟨v,b,hv,hs.reap hr⟩
  | pnft =>
    obtain ⟨v,b,hv,hs⟩ := h
    exact ⟨v,b,hv,hs.reap hr⟩
  | core =>
    have he := reap_live (hr.cores mint r h)
    exact (coreOwner_congr _ _ _ (congrArg Account.owner he) (congrArg Account.data he)).trans h

def NoVault (H : Host) (maker : Pubkey) (nonce : Bytes) (s : Ledger) : Prop :=
  ∀ v b, H.findProgramAddress (vaultSeeds maker nonce) H.programId = some (v,b) → Vacant s v

/-! ## Releases -/

def Released (H : Host) (maker : Pubkey) (nonce : Bytes) (r mint : Pubkey) (n : ℕ) (as : List Act)
    (s' : Ledger) : Family → Prop
  | .token => ∃ v b, H.findProgramAddress (vaultSeeds maker nonce) H.programId = some (v,b) ∧
      (∃ p dest dec seeds, transferAct p v mint dest r n dec (some seeds) ∈ as) ∧
      (∃ p payee seeds, closeAct p v payee r seeds ∈ as) ∧ Vacant s' v
  | .pnft => ∃ args source b dest owner seeds,
      H.findProgramAddress [r.bytes,splTokenId.bytes,mint.bytes] ataProgramId = some (source,b) ∧
      MovesOne args mint source r dest owner r ∧ .invoke (.mplTransfer args) (some seeds) ∈ as ∧
      owner ≠ r ∧ ∃ t, tokenAt s' dest = some t ∧ t.mint = mint ∧ t.authority = owner ∧ 1 ≤ t.amount
  | .core => ∃ collection payer owner seeds,
      .invoke (.coreTransfer mplCoreId mint collection payer r owner true) (some seeds) ∈ as ∧
      owner ≠ r ∧ coreOwner s' mint = some owner

def Presents (H : Host) (maker : Pubkey) (nonce : Bytes) (mint : Pubkey) (s : Ledger) :
    Family → Prop
  | .token => ¬NoVault H maker nonce s
  | .pnft => ∃ s₁, Holdings H (fun _ => False) s s₁ ∧ ∃ p, IsTokenProgram p ∧ IsMint p s₁ mint
  | .core => ∃ s₁, Holdings H (fun _ => False) s s₁ ∧ coreOwner s₁ mint ≠ none

/-- A release finds the goods of its own family, unless it takes an NFT for a
record that has a vault. -/
theorem InCustody.presented {f g : Family} (h : InCustody H maker nonce r mint n s f)
    (hp : Presents H maker nonce mint s g) (hr : H.IsPda r)
    (hvault : f ≠ .token → NoVault H maker nonce s) (hg : g = .pnft → NoVault H maker nonce s) :
    f = g := by
  have hcore : ∀ {s₁ v k}, Holdings H (fun _ => False) s s₁ → Stocked s v mint r k →
      coreOwner s₁ mint = none := fun hf hs => (hs.frame hf hr id).not_core
  cases g with
  | token =>
    by_contra hne
    exact hp (hvault hne)
  | pnft =>
    cases f with
    | token =>
      obtain ⟨v,b,hv,-,t,ht,-⟩ := h
      have hown := (tokenAt_some _ _ _ ht).1
      rw [(hg rfl v b hv).1] at hown
      exact absurd hown (by decide)
    | pnft => rfl
    | core =>
      obtain ⟨s₁,hf,p,hpr,him⟩ := hp
      have hc : coreOwner s₁ mint = some r := hf.cores trivial mint r h hr id
      exact (coreOwner_not_token _ _ _ hc (him.1 ▸ hpr)).elim
  | core =>
    obtain ⟨s₁,hf,hc⟩ := hp
    cases f with
    | token =>
      obtain ⟨v,b,-,hs⟩ := h
      exact (hc (hcore hf hs)).elim
    | pnft =>
      obtain ⟨v,b,-,hs⟩ := h
      exact (hc (hcore hf hs)).elim
    | core => rfl

theorem idle_holdings (hw : Wellformed E) (hno : NoSeizure E.host) (hi : Idle E as)
    (h : Did E as m m') :
    Holdings E.host (fun _ => False) m.ledger m'.ledger :=
  (ran_holdings hw hno as h.ran).mono fun k _ hk => hi.1 k hk

theorem close_keeps {k dest : Pubkey} (h : (Act.close k dest).effect E s = some s') :
    (s k).owner = E.programId ∧ (∀ a, (s' a).owner = (s a).owner) ∧
      ∀ a, a ≠ k → (s' a).data = (s a).data := by
  simp only [Act.effect] at h
  split at h
  · rename_i hp
    cases h
    exact ⟨hp.1,by simp,fun a ha => (drain_other _ _ _ _ ha).1⟩
  · cases h

/-- Tokens leave no empty address. -/
theorem transferAct_not_vacant {p dest auth : Pubkey} {dec : UInt8} {seeds : Option (List Bytes)}
    (ht : TokenRules E.host) (hp : IsTokenProgram p)
    (h : (transferAct p v mint dest auth n dec seeds).effect E s = some s') : ¬Vacant s v := by
  intro hv
  obtain ⟨ts,td,hts,-⟩ := ht.transfer _ _ _ _ _ _ _ _ _ hp (effect_invoke _ _ _ _ h)
  have hown := (tokenAt_some _ _ _ hts).1
  rw [hv.1] at hown
  exact absurd hown (by decide)

/-- An NFT transferred by the signature of a record, which is then closed. -/
theorem mpl_releases {args : MplTransfer} {source dest owner payee : Pubkey} {seeds : List Bytes}
    (hmpl : MplRules E.host) (hw : Wellformed E) (hno : NoSeizure E.host) (hi : Idle E pre)
    (hmove : MovesOne args mint source r dest owner r)
    (hd : Did E (pre ++ [.invoke (.mplTransfer args) (some seeds),.close r payee]) m m') :
    (∃ s₁, Holdings E.host (fun _ => False) m.ledger s₁ ∧
      ∃ p, IsTokenProgram p ∧ IsMint p s₁ mint) ∧
    ∃ t, tokenAt m'.ledger dest = some t ∧ t.mint = mint ∧ t.authority = owner ∧ 1 ≤ t.amount := by
  obtain ⟨m₁,h₁,s₂,h₂,s₃,h₃,rfl⟩ := (did_append _ _ m m').mp hd
  obtain ⟨ts,td,hts,-,-,him,-,htd,hmd,hod,-,-,hle,-⟩ :=
    hmpl.transfer args _ _ hmove.tm (effect_invoke _ _ _ _ h₂)
  rw [hmove.mint] at him hmd
  rw [hmove.amount] at hle
  rw [hmove.dest] at htd
  obtain ⟨ho,hown,hdata⟩ := close_keeps h₃
  have hne : dest ≠ r := by
    rintro rfl
    exact hw.notToken (ho ▸ (tokenAt_some _ _ _ htd).1)
  refine ⟨⟨_,idle_holdings hw hno hi h₁,ts.program,?_,him⟩,td,?_,hmd,hod.trans hmove.destOwner,hle⟩
  · have hs := tokenAt_some _ _ _ hts
    exact hs.2.2.1 ▸ hs.1
  · rw [← htd]
    exact tokenAt_congr _ _ _ (hown dest) (hdata dest hne)

/-- A Core asset transferred by the signature of a record, which is then closed. -/
theorem core_releases {collection payer owner payee : Pubkey} {seeds : List Bytes}
    (hcore : CoreRules E.host) (hw : Wellformed E) (hno : NoSeizure E.host) (hi : Idle E pre)
    (hd : Did E (pre ++ [.invoke (.coreTransfer mplCoreId mint collection payer r owner true)
      (some seeds),.close r payee]) m m') :
    (∃ s₁, Holdings E.host (fun _ => False) m.ledger s₁ ∧ coreOwner s₁ mint ≠ none) ∧
      coreOwner m'.ledger mint = some owner := by
  obtain ⟨m₁,h₁,s₂,h₂,s₃,h₃,rfl⟩ := (did_append _ _ m m').mp hd
  obtain ⟨hold,hnew⟩ := hcore.transfer _ _ _ _ _ _ _ _ (effect_invoke _ _ _ _ h₂)
  obtain ⟨ho,hown,hdata⟩ := close_keeps h₃
  have hne : mint ≠ r := by
    rintro rfl
    unfold coreOwner at hnew
    split at hnew
    · rename_i hc
      exact hw.notCore (ho.symm.trans hc.1)
    · cases hnew
  refine ⟨⟨_,idle_holdings hw hno hi h₁,hold⟩,?_⟩
  rw [← hnew]
  exact coreOwner_congr _ _ _ (hown mint) (hdata mint hne)

/-! ## Opening -/

structure Opened (E : Env) (m m' : Machine) (maker : Pubkey) (nonce : Bytes) (r : Pubkey)
    (f : Family) :
    Prop where
  fresh : Vacant m.ledger r
  signed : E.signed maker
  live : Live E.host (m'.ledger r)
  held : InCustody E.host maker nonce r (keyAt (m'.ledger r).data sGiveMint)
    (u64At (m'.ledger r).data sGiveAmt) m'.ledger f

theorem FreshSlot.opened {bump : UInt8} {wantMint : Pubkey} {f : Family} (mid : List Act)
    (hs : SystemRules E.host) (hw : Wellformed E) (hno : NoSeizure E.host) (hz : ¬E.signed zeroKey)
    (h : FreshSlot E d m maker r bump) (hn : n ≤ u64Max) (hpos : n ≠ 0)
    (hd : Did E (createAct E maker r swapLen E.programId
      (bumped (swapSeeds maker (slice d 0 32)) bump) ::
      (mid ++ [.write r (swapRecord maker mint n wantMint d bump)])) m m')
    (hheld : ∀ m₁ m₂, Did E mid m₁ m₂ →
      InCustody E.host maker (slice d 0 32) r mint n m₂.ledger f) :
    Opened E m m' maker (slice d 0 32) r f := by
  have hl : 120 ≤ d.length := by rw [h.length]
  obtain ⟨s₁,h₁,hrest⟩ := hd
  obtain ⟨m₂,hmid,s₃,h₃,rfl⟩ := (did_append _ _ _ m').mp hrest
  obtain ⟨hown,hdata⟩ := effect_write_stores h₃
  have hparty : (Place.swap maker (slice d 0 32)).party ≠ some zeroKey := by
    intro he
    exact hz (Option.some_inj.mp he ▸ h.signed)
  have hv : swapView (swapRecord maker mint n wantMint d bump) = _ := swapRecord_view hl hn
  simp only [swapView, postedTerms, SwapView.mk.injEq] at hv
  obtain ⟨-,hmint,hamt,-⟩ := hv
  refine ⟨create_vacant hs h₁,h.signed,?_,?_⟩
  · refine Place.Holds.isLive hown ?_ hparty
    rw [hdata]
    exact swapRecord_holds hl hn hpos
  · rw [hdata, hmint, hamt]
    exact (hheld _ _ hmid).frame (effect_holdings hw hno _ h₃) h.at.isPda (signsIn_write _ _ _)

theorem OpenedSwap.opened {k : SwapKeys} {bump vbump dec : UInt8} (hs : SystemRules E.host)
    (ht : TokenRules E.host) (hw : Wellformed E) (hno : NoSeizure E.host) (hz : ¬E.signed zeroKey)
    (h : OpenedSwap E d m m' k bump vbump dec) :
    Opened E m m' k.maker (slice d 0 32) k.swap .token := by
  apply h.slot.opened [_,_,_,_] hs hw hno hz (u64At_le _ _) h.positive h.did
  rintro m₁ m₂ ⟨s₂,h₂,s₃,h₃,s₄,h₄,s₅,h₅,rfl⟩
  have hfund : Funded s₅ k.vault k.giveMint k.swap (u64At d 32) :=
    escrow_funds hs ht h.tokenProg ⟨s₃,h₃,s₄,h₄,s₅,h₅,rfl⟩
  have hmoved := transferAct_transferred ht h.tokenProg h₅
  obtain ⟨hprog,-,-,-,-,hsame,-⟩ := ht.init _ _ _ _ _ _ h.tokenProg (effect_invoke _ _ _ _ h₄)
  have hown : (s₅ k.vault).owner = k.tokenProg := by
    rw [hmoved.owners k.vault, next_ledger, (hsame k.vault).1]
    exact hprog
  obtain ⟨t,hat,hm,hauth,hamt,hsl⟩ := hfund.holds
  refine ⟨k.vault,vbump,h.vault,Nat.pos_of_ne_zero h.positive,t,hat,hm,hauth,hamt,hsl,?_⟩
  rw [(tokenAt_some _ _ _ hat).2.2.1, hown]
  exact hmoved.isMint

theorem OpenedPnft.opened {k : NftKeys} {args : MplTransfer} {bump : UInt8}
    (hs : SystemRules E.host) (hmpl : MplRules E.host) (hw : Wellformed E) (hno : NoSeizure E.host)
    (hz : ¬E.signed zeroKey) (h : OpenedPnft E d m m' k args bump) :
    Opened E m m' k.maker (slice d 0 32) k.swap .pnft := by
  apply h.slot.opened (n := 1) [_,_] hs hw hno hz (by decide) (by decide) h.did
  rintro m₁ m₂ ⟨s₂,h₂,s₃,h₃,rfl⟩
  obtain ⟨ts,td,-,-,-,-,-,htd,hmd,hod,hpr,hsl,hle,-,him⟩ :=
    hmpl.transfer args _ _ h.move.tm (effect_invoke _ _ _ _ h₃)
  rw [h.move.dest] at htd
  rw [h.move.amount] at hle
  rw [h.move.mint] at him hmd
  obtain ⟨b,hb⟩ := h.vault
  exact ⟨k.vault,b,hb,Nat.one_pos,td,htd,hmd,hod.trans h.move.destOwner,hle,hsl,hpr ▸ him⟩

theorem OpenedCore.opened {k : NftKeys} {collection : Pubkey} {bump : UInt8}
    (hs : SystemRules E.host) (hcore : CoreRules E.host) (hw : Wellformed E)
    (hno : NoSeizure E.host) (hz : ¬E.signed zeroKey) (h : OpenedCore E d m m' k collection bump) :
    Opened E m m' k.maker (slice d 0 32) k.swap .core := by
  apply h.slot.opened (n := 1) [_,_] hs hw hno hz (by decide) (by decide) h.did
  rintro m₁ m₂ ⟨s₂,h₂,s₃,h₃,rfl⟩
  exact (hcore.transfer _ _ _ _ _ _ _ _ (effect_invoke _ _ _ _ h₃)).2

/-! ## Closing -/

def Family.closed : UInt8 → Option Family
  | 1 | 2 | 3 | 5 => some token
  | 19 | 20 | 21 => some pnft
  | 23 | 24 | 25 => some core
  | _ => none

structure Ended (E : Env) (m m' : Machine) (maker : Pubkey) (nonce : Bytes) (r : Pubkey)
    (f : Family) :
    Prop where
  slot : SlotIs E 1 r
  live : Live E.host (m.ledger r)
  wiped : Wiped E.host (m'.ledger r)
  presents : Presents E.host maker nonce (keyAt (m.ledger r).data sGiveMint) m.ledger f
  released : Released E.host maker nonce r (keyAt (m.ledger r).data sGiveMint)
    (u64At (m.ledger r).data sGiveAmt) (m'.trace.map Event.act) m'.ledger f

/-- The acts after idle ones use only what they sign for and write. -/
theorem uses_rest {k : Pubkey} (hi : Idle E pre) (hs : ∀ j, SignsIn E rest j → j = k)
    (ht : ∀ j, TouchedIn rest j → j = k) (hu : Uses E (pre ++ rest) r) : r = k := by
  rcases hu with hj | hj
  · exact hs r (((signsIn_append _ _ _).mp hj).resolve_left (hi.1 r))
  · exact ht r (((touchedIn_append _ _ _).mp hj).resolve_left (hi.2 r))

/-- A record that signs by its own seeds and is closed was the live one of its place. -/
theorem swap_ended {recMaker payee : Pubkey} {recNonce : Bytes} {bump : UInt8} (hw : Wellformed E)
    (hf : Confined E.host) (hc : E.host.CollisionFree) (hn : recNonce.length = 32)
    (ho : (m.ledger r).owner = E.programId) (hmk : keyAt (m.ledger r).data sMaker = recMaker)
    (ha : E.host.createProgramAddress (bumped (swapSeeds recMaker recNonce) bump) E.programId =
      some r)
    (hd : Did E (as ++ [.close r payee]) m m') (ht : ¬TouchedIn as r)
    (hk : (Place.swap maker nonce).At E.host r)
    (hslot : Slot E.host (.swap maker nonce) (m.ledger r)) :
    recMaker = maker ∧ recNonce = nonce ∧ Live E.host (m.ledger r) ∧
      Wiped E.host (m'.ledger r) := by
  obtain ⟨rfl,rfl,hlive⟩ := refund_live hw.notSystem hc ho hmk ⟨hn,_,ha⟩ rfl hk hslot
  have hend := close_wipes hw hf hd ht (touchedIn_nil _) ho
  have hparty : (Place.swap recMaker recNonce).party ≠ some zeroKey := by
    cases hslot with
    | vacant hso _ => exact (hw.notSystem (ho.symm.trans hso)).elim
    | closed _ _ hz => exact hz
    | live _ _ _ hz => exact hz
  exact ⟨rfl,rfl,hlive.isLive ho hparty,hend.1,by rw [hend.2, zeros_length]⟩

/-- Tokens taken out of the vault of a record, which is still a token account after
the acts `mid` and is then closed. -/
theorem vault_releases {p dest payee : Pubkey} {dec b : UInt8} {sg : List Bytes} (mid : List Act)
    (ht : TokenRules E.host) (hw : Wellformed E) (hf : Confined E.host) (hp : IsTokenProgram p)
    (hn : nonce.length = 32)
    (hv : E.host.findProgramAddress (vaultSeeds maker nonce) E.programId = some (v,b))
    (hpre : ¬SignsIn E pre v) (hpost : ¬SignsIn E rest v)
    (hmid : ∀ m₁ m₂, Did E pre m m₁ → Did E (transferAct p v mint dest r n dec (some sg) :: mid) m₁
      m₂ → ∃ t, tokenAt m₂.ledger v = some t)
    (hd : Did E (pre ++ transferAct p v mint dest r n dec (some sg) :: (mid ++
      closeAct p v payee r sg :: rest)) m m')
    (hm : m.trace = []) :
    Presents E.host maker nonce mint m.ledger .token ∧
      Released E.host maker nonce r mint n (m'.trace.map Event.act) m'.ledger .token := by
  have hpda := (Place.At.of_find (p := .vault maker nonce) hn hv).isPda
  have hacts := did_trace _ _ _ hd
  rw [hm, List.map_nil, List.nil_append] at hacts
  obtain ⟨m₁,h₁,s₂,h₂,hrest⟩ := (did_append _ _ m m').mp hd
  obtain ⟨m₃,h₃,s₄,h₄,h₅⟩ := (did_append _ _ _ m').mp hrest
  constructor
  · intro hno
    exact transferAct_not_vacant ht hp h₂ (vacant_did hw hf hpda (hno v b hv) h₁ hpre)
  · obtain ⟨t,hat⟩ := hmid m₁ m₃ h₁ ⟨s₂,h₂,h₃⟩
    obtain ⟨hgone,-⟩ := closeAct_closes ht hp hat h₄
    refine ⟨v,b,hv,⟨p,dest,dec,sg,?_⟩,⟨p,payee,sg,?_⟩,?_⟩
    · rw [hacts]
      simp
    · rw [hacts]
      simp
    · exact vacant_did hw hf hpda ⟨by rw [next_ledger, hgone],by rw [next_ledger, hgone]⟩ h₅ hpost

theorem transferAct_held {p dest auth : Pubkey} {dec : UInt8} {sig : Option (List Bytes)}
    (ht : TokenRules E.host) (hp : IsTokenProgram p)
    (hd : Did E [transferAct p v mint dest auth n dec sig] m m') :
    ∃ t, tokenAt m'.ledger v = some t := by
  obtain ⟨s,h,rfl⟩ := hd
  obtain ⟨t,hat,-⟩ := (transferAct_transferred ht hp h).held
  exact ⟨t,hat⟩

section
variable (hw : Wellformed E) (hf : Confined E.host) (hc : E.host.CollisionFree) (hm : m.trace = [])
  (hk : (Place.swap maker nonce).At E.host r) (hslot : Slot E.host (.swap maker nonce) (m.ledger r))
  (hu : Uses E (m'.trace.map Event.act) r)

include hw hf hc hm hk hslot hu

theorem FilledSwap.ended {k : RecordKeys} {v : VaultKeys} {giveDec wantDec : UInt8}
    (ht : TokenRules E.host) (h : FilledSwap E d m m₁ m' k v giveDec wantDec) :
    Ended E m m' maker nonce r .token := by
  have hd : Did E (paidActs m k (plainPayment wantDec) ++
      fillActs k v (m.ledger k.record).data (slice d 0 32) giveDec) m m' :=
    (did_append _ _ m m').mpr ⟨m₁,h.paid.did,h.did⟩
  rw [did_trace _ _ _ hd, hm, List.map_nil, List.nil_append] at hu
  obtain rfl : r = k.record := by
    refine uses_rest h.idle (fun j hj => ?_) (fun j hj => ?_) hu
    · simp [fillActs, transferAct, closeAct] at hj
      exact address_unique hj h.address
    · simpa [fillActs, transferAct, closeAct] using hj
  obtain ⟨b,hb⟩ := h.vault
  have hd' : Did E ((paidActs m k (plainPayment wantDec) ++
      [transferAct v.giveTokenProg v.vault k.giveMint v.takerGive k.record
        (u64At (m.ledger k.record).data sGiveAmt) giveDec
          (some (swapSigner k.maker (m.ledger k.record).data (slice d 0 32))),
      closeAct v.giveTokenProg v.vault k.maker k.record
        (swapSigner k.maker (m.ledger k.record).data (slice d 0 32))]) ++ [.close k.record k.maker])
          m m' := by
    rw [List.append_assoc]
    exact hd
  obtain ⟨rfl,rfl,hlive,hwiped⟩ := swap_ended hw hf hc h.nonce h.owner h.maker h.address hd'
    (by simp [transferAct, closeAct, h.idle.2]) hk hslot
  have hrel := vault_releases [] ht hw hf h.giveTokenProg h.nonce hb (h.idle.1 _)
    (signsIn_close _ _ _) (fun _ _ _ he => transferAct_held ht h.giveTokenProg he) hd hm
  rw [← h.fillable.2.2.1] at hrel
  exact ⟨h.slot,hlive,hwiped,hrel.1,hrel.2⟩

theorem RefundedSwap.ended {k : SwapRefundKeys} {mintIdx tokenIdx : ℕ} {dec : UInt8}
    (ht : TokenRules E.host) (h : RefundedSwap E d m m' k mintIdx tokenIdx pre dec)
    (hi : Idle E pre) (hn : d.length = 32) (hg : GenuineTokens (m'.trace.map Event.act)) :
    Ended E m m' maker nonce r .token := by
  have hacts := did_trace _ _ _ h.did
  rw [hm, List.map_nil, List.nil_append] at hacts
  rw [hacts] at hu hg
  obtain rfl : r = k.swap := by
    refine uses_rest hi (fun j hj => ?_) (fun j hj => ?_) hu
    · simp [refundSwapActs, transferAct, closeAct] at hj
      exact address_unique hj h.address
    · simpa [refundSwapActs, transferAct, closeAct] using hj
  obtain ⟨b,hb⟩ := h.vault
  have hclose : closeAct k.tokenProg k.vault k.maker k.swap (swapSigner k.maker
      (m.ledger k.swap).data d) ∈ pre ++ refundSwapActs k (m.ledger k.swap).data d dec := by
    simp [refundSwapActs]
  have hd' : Did E ((pre ++ [transferAct k.tokenProg k.vault k.giveMint k.makerGive k.swap
      (u64At (m.ledger k.swap).data sGiveAmt) dec
      (some (swapSigner k.maker (m.ledger k.swap).data d)),
    closeAct k.tokenProg k.vault k.maker k.swap (swapSigner k.maker (m.ledger k.swap).data d)]) ++
      [.close k.swap k.maker]) m m' := by
    rw [List.append_assoc]
    exact h.did
  obtain ⟨rfl,rfl,hlive,hwiped⟩ := swap_ended hw hf hc hn h.isSwap.owner h.maker h.address hd'
    (by simp [transferAct, closeAct, hi.2]) hk hslot
  have hrel := vault_releases [] ht hw hf (hg.closes hclose) hn hb (hi.1 _)
    (signsIn_close _ _ _) (fun _ _ _ he => transferAct_held ht (hg.closes hclose) he) h.did hm
  rw [← h.giveMint] at hrel
  exact ⟨h.slot,hlive,hwiped,hrel.1,hrel.2⟩

theorem AcceptedOffer.ended {k : AcceptKeys} {giveDec wantDec : UInt8} (ht : TokenRules E.host)
    (h : AcceptedOffer E d m m' k giveDec wantDec) (hg : GenuineTokens (m'.trace.map Event.act)) :
    Ended E m m' maker nonce r .token := by
  have hsn : (slice d 0 32).length = 32 := slice_length _ _ _ (by have := h.length; omega)
  have hon : (slice d 32 32).length = 32 := slice_length _ _ _ (by have := h.length; omega)
  obtain ⟨hs,ho⟩ := h.signers hw
  have hsat : (Place.swap k.maker (slice d 0 32)).At E.host k.swap := ⟨hsn,_,hs⟩
  have hoat : (Place.offer k.offerer (slice d 32 32)).At E.host k.offer := ⟨hon,_,ho⟩
  obtain ⟨b,hb⟩ := h.swapVault
  obtain ⟨bo,hbo⟩ := h.offerVault
  have hvat : (Place.vault k.maker (slice d 0 32)).At E.host k.swapVault := .of_find hsn hb
  have hovat : (Place.ovault k.offerer (slice d 32 32)).At E.host k.offerVault := .of_find hon hbo
  have hslot₁ : SlotIs E 1 k.swap := by
    have hget := congrArg (fun ks => ks[1]?) h.slots
    rwa [List.getElem?_map] at hget
  have hacts := did_trace _ _ _ h.did
  rw [hm, List.map_nil, List.nil_append] at hacts
  rw [hacts] at hu hg
  obtain rfl : r = k.swap := by
    have hne : r ≠ k.offer := hk.ne hc hoat (by simp)
    rw [acceptActs_eq] at hu
    rcases hu with hj | hj
    · rw [escrowActs, signsIn_append, signsIn_append] at hj
      simp [transferAct, closeAct] at hj
      rcases hj with hj | hj | hj | hj
      · exact (hne (address_unique (signsIn_priceActs hj) ho)).elim
      · exact address_unique hj hs
      · exact (hne (address_unique hj ho)).elim
      · exact address_unique hj hs
    · simp only [touchedIn_append, touchedIn_escrowActs, touchedIn_cons_cons, touchedIn_close,
        false_or] at hj
      exact hj.resolve_left hne
  have hclose : closeAct k.tokenProg k.swapVault k.maker k.swap (swapSigner k.maker
      (m.ledger k.swap).data (slice d 0 32)) ∈ acceptActs k (m.ledger k.swap).data
      (m.ledger k.offer).data (slice d 0 32) (slice d 32 32)
      (feeAt m.ledger k.config (u64At (m.ledger k.offer).data oWantAmt)) giveDec wantDec := by
    simp [acceptActs]
  have hp : IsTokenProgram k.tokenProg := hg.closes hclose
  have hne : ∀ {a : Pubkey}, (Place.vault k.maker (slice d 0 32)).At E.host a →
      E.host.createProgramAddress (offerSigner k.offerer (m.ledger k.offer).data (slice d 32 32))
        E.programId ≠ some a := fun ha hj => by
    have hat : (Place.offer k.offerer (slice d 32 32)).At E.host _ := ⟨hon,_,hj⟩
    cases hat.inj hc ha
  have hd := h.did
  rw [acceptActs_eq, List.append_cons] at hd
  obtain ⟨rfl,rfl,hlive,hwiped⟩ := swap_ended hw hf hc hsn h.isSwap.owner h.maker hs hd
    (by
      rw [touchedIn_append]
      simpa [touchedIn_escrowActs] using (hoat.ne hc hsat (by simp)).symm) hk hslot
  have hrel := vault_releases [closeAct k.tokenProg k.offerVault k.offerer k.offer
      (offerSigner k.offerer (m.ledger k.offer).data (slice d 32 32))] ht hw hf hp hsn hb
    (fun hj => hne hvat (signsIn_priceActs hj)) (by simp) ?_ h.did hm
  · rw [← h.giveMint] at hrel
    exact ⟨hslot₁,hlive,hwiped,hrel.1,hrel.2⟩
  · -- the other vault is a token account until it is closed
    rintro m₁ m₂ hprice ⟨s₁,h₁,s₂,h₂,rfl⟩
    obtain ⟨m₀,-,hlast⟩ := (did_append _ _ _ _).mp hprice
    obtain ⟨t₀,hpaid⟩ := transferAct_held ht hp hlast
    obtain ⟨t₁,hpaid,-⟩ := (transferAct_transferred ht hp h₁).tokens _ _ hpaid
    obtain ⟨t₂,hgoods,-⟩ := (transferAct_transferred ht hp h₁).held
    obtain ⟨-,-,-,-,hdo,hdd,-,hother⟩ := ht.close _ _ _ _ _ _ _ hp hpaid (effect_invoke _ _ _ _ h₂)
    refine ⟨t₂,?_⟩
    rw [← hgoods, next_ledger]
    by_cases he : k.swapVault = k.offerer
    · rw [he]
      exact tokenAt_congr _ _ _ hdo hdd
    · have hsame := hother k.swapVault (hvat.ne hc hovat (by simp)) he
      exact tokenAt_congr _ _ _ (congrArg Account.owner hsame) (congrArg Account.data hsame)

/-- A record that signs for the one act `move` and is closed. -/
theorem swap_moved {k recMaker payee : Pubkey} {recNonce : Bytes} {bump : UInt8} {move : Cpi}
    (hi : Idle E pre) (hn : recNonce.length = 32) (ho : (m.ledger k).owner = E.programId)
    (hmk : keyAt (m.ledger k).data sMaker = recMaker)
    (ha : E.host.createProgramAddress (bumped (swapSeeds recMaker recNonce) bump) E.programId =
      some k)
    (hd : Did E (pre ++ [.invoke move (some (bumped (swapSeeds recMaker recNonce) bump)),
      .close k payee]) m m') :
    r = k ∧ Live E.host (m.ledger r) ∧ Wiped E.host (m'.ledger r) ∧
      .invoke move (some (bumped (swapSeeds recMaker recNonce) bump)) ∈ m'.trace.map Event.act := by
  have hacts := did_trace _ _ _ hd
  rw [hm, List.map_nil, List.nil_append] at hacts
  rw [hacts] at hu
  obtain rfl : r = k := by
    refine uses_rest hi (fun j hj => ?_) (fun j hj => ?_) hu
    · simp at hj
      exact address_unique hj ha
    · simpa using hj
  rw [List.append_cons] at hd
  obtain ⟨-,-,hlive,hwiped⟩ := swap_ended hw hf hc hn ho hmk ha hd (by simp [hi.2]) hk hslot
  exact ⟨rfl,hlive,hwiped,by rw [hacts]; simp⟩

theorem FilledPnft.ended {k : RecordKeys} {p : Payment} {vault dest : Pubkey} {args : MplTransfer}
    (hmpl : MplRules E.host) (hno : NoSeizure E.host)
    (h : FilledPnft E d m m₁ m' k p vault dest args) :
    Ended E m m' maker nonce r .pnft := by
  have hd := (did_append _ _ m m').mpr ⟨m₁,h.paid.did,h.did⟩
  obtain ⟨rfl,hlive,hwiped,hmem⟩ :=
    swap_moved hw hf hc hm hk hslot hu h.idle h.nonce h.owner h.maker h.address hd
  obtain ⟨hpres,hdest⟩ := mpl_releases hmpl hw hno h.idle h.move hd
  obtain ⟨b,hb⟩ := h.source
  have hne : k.taker ≠ k.record := by
    obtain ⟨a,ha,hak,hs⟩ := h.signed
    intro he
    exact hw.signers a ha hs (hak ▸ he ▸ hk.isPda)
  rw [← h.fillable.2.2.1] at hb hpres hdest
  refine ⟨h.slot,hlive,hwiped,hpres,args,vault,b,dest,k.taker,_,hb,?_,hmem,hne,hdest⟩
  rw [h.fillable.2.2.1]
  exact h.move

theorem ReleasedPnft.ended {k : ReleaseKeys} {vault dest : Pubkey} {args : MplTransfer}
    (hmpl : MplRules E.host) (hno : NoSeizure E.host)
    (h : ReleasedPnft E d m m' k vault dest args pre) (hi : Idle E pre) (hn : d.length = 32)
    (hback : k.newOwner = k.maker) (hmk : Live E.host (m.ledger r) → ¬E.host.IsPda maker) :
    Ended E m m' maker nonce r .pnft := by
  obtain ⟨rfl,hlive,hwiped,hmem⟩ := swap_moved hw hf hc hm hk hslot hu hi hn h.isSwap.owner h.maker
    h.address h.did
  obtain ⟨hpres,hdest⟩ := mpl_releases hmpl hw hno hi h.move h.did
  obtain ⟨b,hb⟩ := h.source
  obtain ⟨rfl,-⟩ := Place.swap.inj (hk.inj hc ⟨hn,_,h.address⟩)
  have hne : k.newOwner ≠ k.swap := by
    intro he
    exact hmk hlive (hback ▸ he ▸ hk.isPda)
  rw [← h.mint] at hb hpres hdest
  refine ⟨h.slot,hlive,hwiped,hpres,args,vault,b,dest,k.newOwner,_,hb,?_,hmem,hne,hdest⟩
  rw [h.mint]
  exact h.move

theorem FilledCore.ended {k : RecordKeys} {wantDec : UInt8} {collection : Pubkey}
    (hcore : CoreRules E.host) (hno : NoSeizure E.host)
    (h : FilledCore E d m m₁ m' k wantDec collection) :
    Ended E m m' maker nonce r .core := by
  have hd := (did_append _ _ m m').mpr ⟨m₁,h.paid.did,h.did⟩
  obtain ⟨rfl,hlive,hwiped,hmem⟩ :=
    swap_moved hw hf hc hm hk hslot hu h.idle h.nonce h.owner h.maker h.address hd
  obtain ⟨hpres,hnew⟩ := core_releases hcore hw hno h.idle hd
  have hne : k.taker ≠ k.record := by
    obtain ⟨a,ha,hak,hs⟩ := h.signed
    intro he
    exact hw.signers a ha hs (hak ▸ he ▸ hk.isPda)
  rw [← h.fillable.2.2.1] at hmem hpres hnew
  exact ⟨h.slot,hlive,hwiped,hpres,collection,k.taker,k.taker,_,hmem,hne,hnew⟩

theorem ReleasedCore.ended {k : ReleaseKeys} {collection payer : Pubkey} (hcore : CoreRules E.host)
    (hno : NoSeizure E.host) (h : ReleasedCore E d m m' k collection payer pre) (hi : Idle E pre)
    (hn : d.length = 32) (hback : k.newOwner = k.maker)
    (hmk : Live E.host (m.ledger r) → ¬E.host.IsPda maker) :
    Ended E m m' maker nonce r .core := by
  obtain ⟨rfl,hlive,hwiped,hmem⟩ := swap_moved hw hf hc hm hk hslot hu hi hn h.isSwap.owner h.maker
    h.address h.did
  obtain ⟨hpres,hnew⟩ := core_releases hcore hw hno hi h.did
  obtain ⟨rfl,-⟩ := Place.swap.inj (hk.inj hc ⟨hn,_,h.address⟩)
  have hne : k.newOwner ≠ k.swap := by
    intro he
    exact hmk hlive (hback ▸ he ▸ hk.isPda)
  rw [← h.mint] at hmem hpres hnew
  exact ⟨h.slot,hlive,hwiped,hpres,collection,payer,k.newOwner,_,hmem,hne,hnew⟩

end

end Xete.Swap
