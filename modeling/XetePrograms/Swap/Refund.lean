import XetePrograms.Swap.Client
import XetePrograms.Swap.Origin
import XetePrograms.Swap.Prefunded

/-!
# Refunds that cannot be blocked

The token programs close an account that holds nothing, and a refund leaves the
vault with what it held above the recorded amount. So a refund with the accounts
that the client names is accepted exactly while the vault holds what the record
says, in every reachable state, and then delivers it.
-/

set_option autoImplicit false

namespace Xete.Swap
open Xete.Octets Xete.Weakest Xete.Chain Xete.Token Xete.Runtime Xete.Rules

variable {E : Env} {H : Host} {m m' : Machine} {s s' s₀ : Ledger} {p v mint dest r payee : Pubkey}
  {n : ℕ} {seeds : List Bytes} {d : Bytes}

/-! ## One vault -/

structure Refundable (E : Env) (s : Ledger) (p v mint dest r payee : Pubkey) (n : ℕ)
    (seeds : List Bytes) : Prop where
  program : IsTokenProgram p
  passed : ∃ a ∈ E.accounts, a.key = p
  signer : E.host.createProgramAddress seeds E.programId = some r
  writable : E.writable v ∧ E.writable dest ∧ E.writable payee
  isMint : IsMint p s mint
  vault : ∃ t, tokenAt s v = some t ∧ t.program = p ∧ t.mint = mint ∧ t.authority = r ∧
    n ≤ t.amount ∧ Sealed t ∧ t.native = false ∧ t.frozen = false
  target : ∃ t, tokenAt s dest = some t ∧ t.program = p ∧ t.mint = mint ∧ t.frozen = false ∧
    t.amount+n ≤ u64Max
  apart : v ≠ dest ∧ v ≠ payee
  room : (s payee).lamports+(s v).lamports ≤ u64Max

structure Freed (s s' : Ledger) (v dest payee : Pubkey) (n : ℕ) : Prop where
  gone : s' v = ⟨0,systemId,[]⟩
  credited : ∀ t, tokenAt s dest = some t → ∃ t', tokenAt s' dest = some t' ∧
    t'.amount = t.amount+n ∧
    t'.program = t.program ∧ t'.mint = t.mint ∧ t'.authority = t.authority ∧ t'.frozen = t.frozen
  paid : (s' payee).lamports = (s payee).lamports+(s v).lamports
  lamports : ∀ a, a ≠ v → a ≠ payee → (s' a).lamports = (s a).lamports
  owners : ∀ a, a ≠ v → (s' a).owner = (s a).owner
  data : ∀ a, a ≠ v → a ≠ dest → (s' a).data = (s a).data

theorem permits_program (hw : Wellformed E) (hp : IsTokenProgram p) : p ≠ E.programId :=
  fun he => hw.notToken (he ▸ hp)

theorem pda_signs {k : Pubkey} (h : E.host.createProgramAddress seeds E.programId = some k) :
    E.pdaSigner (some seeds) = some k := h

theorem Refundable.transfers (hw : Wellformed E) (ha : TokenAccepts E.host)
    (h : Refundable E s p v mint dest r payee n seeds) :
    ∃ s₁, (transferAct p v mint dest r n (mintDecimalsAt s mint) (some seeds)).effect E s =
      some s₁ := by
  obtain ⟨t,ht,htp,htm,rfl,hle,-,-,hfz⟩ := h.vault
  obtain ⟨td,htd,hdp,hdm,hdf,hroom⟩ := h.target
  have hperm : E.permits (.transferChecked p v mint dest t.authority n (mintDecimalsAt s mint))
      (some seeds) := by
    refine ⟨permits_program hw h.program,h.passed,fun _ => by rw [pda_signs h.signer]; rfl,?_⟩
    simp [Cpi.metas, writing, reading, signing, h.writable.1, h.writable.2.1, pda_signs h.signer]
  obtain ⟨s₁,h₁⟩ := ha.transfer p v mint dest n s t td h.program h.isMint ht htd htp hdp htm
    hdm hfz hdf h.apart.1 hle hroom
  refine ⟨s₁,?_⟩
  rw [transferAct, Act.effect, if_pos hperm]
  exact h₁

def Exact (s : Ledger) (v : Pubkey) (n : ℕ) : Prop := ∃ t, tokenAt s v = some t ∧ t.amount = n

/-- The vault after its transfer. -/
theorem Refundable.left {dec : UInt8} {s₁ : Ledger} (ht : TokenRules E.host)
    (h : Refundable E s p v mint dest r payee n seeds)
    (h₁ : (transferAct p v mint dest r n dec (some seeds)).effect E s = some s₁) :
    (∃ t t₁, tokenAt s v = some t ∧ tokenAt s₁ v = some t₁ ∧ t₁.amount = t.amount-n ∧ n ≤ t.amount ∧
      t₁.program = p ∧ t₁.authority = r ∧ t₁.native = false ∧ Sealed t₁) ∧
    ∀ a, (s₁ a).lamports = (s a).lamports := by
  obtain ⟨t,hat,htp,htm,hauth,hle,hsl,hnat,hfz⟩ := h.vault
  obtain ⟨ts,td,hts,-,-,-,-,-,-,-,-,hmove,-,-,hlam,-⟩ :=
    ht.transfer _ _ _ _ _ _ _ _ _ h.program (effect_invoke _ _ _ _ h₁)
  obtain rfl : t = ts := Option.some_inj.mp (hat.symm.trans hts)
  obtain ⟨⟨t₁,ht₁,hamt,hprog,-,hauth₁,hnat₁,-,hsl₁⟩,-⟩ := hmove h.apart.1
  exact ⟨⟨t,t₁,hat,ht₁,hamt,hle,hprog,hauth₁.trans hauth,hnat₁.trans hnat,hsl₁ hsl⟩,hlam hnat⟩

/-- A vault that holds more than it owes cannot be closed. -/
theorem Refundable.exact {dec : UInt8} (ht : TokenRules E.host)
    (h : Refundable E m.ledger p v mint dest r payee n seeds)
    (hd : Did E [transferAct p v mint dest r n dec (some seeds),closeAct p v payee r seeds] m m') :
    Exact m.ledger v n := by
  obtain ⟨s₁,h₁,s₂,h₂,-⟩ := hd
  obtain ⟨⟨t,t₁,hat,ht₁,hamt,hle,-,-,hnat,-⟩,-⟩ := h.left ht h₁
  obtain ⟨-,hempty,-⟩ := ht.close _ _ _ _ _ _ _ h.program ht₁ (effect_invoke _ _ _ _ h₂)
  rw [hnat] at hempty
  have hz := hempty.resolve_left Bool.false_ne_true
  exact ⟨t,hat,by omega⟩

theorem Refundable.frees (hw : Wellformed E) (ht : TokenRules E.host) (ha : TokenAccepts E.host)
    (h : Refundable E m.ledger p v mint dest r payee n seeds) (hx : Exact m.ledger v n) :
    ∃ m', Did E [transferAct p v mint dest r n (mintDecimalsAt m.ledger mint) (some seeds),
      closeAct p v payee r seeds] m m' := by
  obtain ⟨s₁,h₁⟩ := h.transfers hw ha
  obtain ⟨⟨t,t₁,hat,ht₁,hamt,-,hprog,hauth,hnat,hsl⟩,hlam⟩ := h.left ht h₁
  obtain ⟨t',hat',hn⟩ := hx
  obtain rfl : t = t' := Option.some_inj.mp (hat.symm.trans hat')
  obtain ⟨s₂,h₂⟩ := ha.close p v payee s₁ t₁ h.program ht₁ hprog hnat (by omega) hsl.2 h.apart.2
    (by rw [hlam, hlam]; exact h.room)
  rw [hauth] at h₂
  have hperm : E.permits (.closeAccount p v payee r) (some seeds) := by
    refine ⟨permits_program hw h.program,h.passed,fun _ => by rw [pda_signs h.signer]; rfl,?_⟩
    simp [Cpi.metas, writing, signing, h.writable.1, h.writable.2.2, pda_signs h.signer]
  refine ⟨_,s₁,h₁,s₂,?_,rfl⟩
  rw [closeAct, Act.effect, if_pos hperm]
  exact h₂

theorem freed (ht : TokenRules E.host) (h : Refundable E m.ledger p v mint dest r payee n seeds)
    {dec : UInt8}
    (hd : Did E [transferAct p v mint dest r n dec (some seeds),closeAct p v payee r seeds] m m') :
    Freed m.ledger m'.ledger v dest payee n := by
  obtain ⟨t,hat,htp,htm,hauth,hle,hsl,hnat,hfz⟩ := h.vault
  obtain ⟨s₁,h₁,s₂,h₂,rfl⟩ := hd
  obtain ⟨ts,td,hts,htd,-,-,hdp,-,hdm,-,-,hmove,how,hother,hlam,-⟩ :=
    ht.transfer _ _ _ _ _ _ _ _ _ h.program (effect_invoke _ _ _ _ h₁)
  obtain rfl : t = ts := Option.some_inj.mp (hat.symm.trans hts)
  obtain ⟨⟨t₁,ht₁,-⟩,td₁,htd₁,hamt,hprog,hmint,hauthd,-,hfrozen,-⟩ := hmove h.apart.1
  have hlam₁ := hlam hnat
  obtain ⟨-,-,-,hgone,hpo,hpd,hpl,hrest⟩ :=
    ht.close _ _ _ _ _ _ _ h.program ht₁ (effect_invoke _ _ _ _ h₂)
  simp only [next_ledger] at *
  have hkeep : ∀ a, a ≠ v → (s₂ a).owner = (s₁ a).owner ∧ (s₂ a).data = (s₁ a).data := by
    intro a ha
    by_cases hp : a = payee
    · exact ⟨hp ▸ hpo,hp ▸ hpd⟩
    · rw [hrest a ha hp]
      exact ⟨rfl,rfl⟩
  constructor
  · exact hgone
  · intro t' ht'
    obtain rfl : td = t' := Option.some_inj.mp (htd.symm.trans ht')
    obtain ⟨ho,hdat⟩ := hkeep dest h.apart.1.symm
    refine ⟨td₁,?_,hamt,hprog.trans hdp.symm,hmint.trans hdm.symm,hauthd,hfrozen⟩
    rw [tokenAt_congr _ _ _ ho hdat, htd₁]
  · rw [hpl, hlam₁, hlam₁]
  · intro a ha hp
    rw [hrest a ha hp, hlam₁]
  · intro a ha
    rw [(hkeep a ha).1, how]
  · intro a ha hd
    rw [(hkeep a ha).2, hother a ha hd]

/-! ## One record -/

structure Closable (E : Env) (s : Ledger) (v r payee : Pubkey) : Prop where
  owner : (s r).owner = E.programId
  writable : E.writable r ∧ E.writable payee
  apart : r ≠ payee ∧ r ≠ v
  room : (s payee).lamports+(s v).lamports+(s r).lamports ≤ u64Max

structure Delivered (s s' : Ledger) (v dest r payee : Pubkey) (n : ℕ) : Prop where
  gone : s' v = ⟨0,systemId,[]⟩
  credited : ∀ t, tokenAt s dest = some t → ∃ t', tokenAt s' dest = some t' ∧
    t'.amount = t.amount+n ∧
    t'.program = t.program ∧ t'.mint = t.mint ∧ t'.authority = t.authority ∧ t'.frozen = t.frozen
  wiped : (s' r).lamports = 0 ∧ (s' r).data = zeros (s r).data.length
  paid : (s' payee).lamports = (s payee).lamports+(s v).lamports+(s r).lamports

def refundActs (p v mint dest r payee : Pubkey) (n : ℕ) (dec : UInt8) (seeds : List Bytes) :
    List Act :=
  [transferAct p v mint dest r n dec (some seeds),closeAct p v payee r seeds,.close r payee]

theorem refund_exact {dec : UInt8} (ht : TokenRules E.host)
    (h : Refundable E m.ledger p v mint dest r payee n seeds)
    (hd : Did E (refundActs p v mint dest r payee n dec seeds) m m') : Exact m.ledger v n := by
  obtain ⟨s₁,h₁,s₂,h₂,-⟩ := hd
  exact h.exact ht ⟨s₁,h₁,s₂,h₂,rfl⟩

theorem refund_runs (hw : Wellformed E) (ht : TokenRules E.host) (ha : TokenAccepts E.host)
    (h : Refundable E m.ledger p v mint dest r payee n seeds) (hc : Closable E m.ledger v r payee)
    (hx : Exact m.ledger v n) :
    ∃ m', Did E (refundActs p v mint dest r payee n (mintDecimalsAt m.ledger mint) seeds) m m' := by
  obtain ⟨m₁,hd⟩ := h.frees hw ht ha hx
  have hf := freed ht h hd
  have he := close_effect ((hf.owners r hc.apart.2).trans hc.owner) hc.writable.1
    hc.writable.2 hc.apart.1 (by
      rw [hf.paid, hf.lamports r hc.apart.2 hc.apart.1]
      exact hc.room)
  obtain ⟨s₁,h₁,s₂,h₂,rfl⟩ := hd
  exact ⟨_,s₁,h₁,s₂,h₂,_,he,rfl⟩

theorem refund_delivers (hw : Wellformed E) (ht : TokenRules E.host)
    (h : Refundable E m.ledger p v mint dest r payee n seeds) (hc : Closable E m.ledger v r payee)
    {dec : UInt8} (hd : Did E (refundActs p v mint dest r payee n dec seeds) m m') :
    Delivered m.ledger m'.ledger v dest r payee n := by
  obtain ⟨m₁,hfree,s₃,h₃,rfl⟩ := (did_append [_,_] [_] m m').mp hd
  have hf := freed ht h hfree
  obtain ⟨td,htd,-⟩ := h.target
  -- the record is none of the token accounts
  have hne : ∀ {a t}, tokenAt m.ledger a = some t → a ≠ r := by
    rintro a t hat rfl
    exact hw.notToken (hc.owner ▸ (tokenAt_some _ _ _ hat).1)
  have hdata : (m₁.ledger r).data = (m.ledger r).data := hf.data r hc.apart.2 (hne htd).symm
  simp only [Act.effect] at h₃
  split at h₃
  · cases h₃
    rw [next_ledger]
    constructor
    · simp [drain, hc.apart.2.symm, h.apart.2, hf.gone]
    · intro t hat
      obtain ⟨t',ht',hrest⟩ := hf.credited t hat
      refine ⟨t',?_,hrest⟩
      rw [tokenAt_congr _ _ _ (drain_owner _ _ _ _) (drain_other _ _ _ _ (hne hat)).1, ht']
    · simp [drain, hdata]
    · simp [drain, hc.apart.1.symm, hf.paid, hf.lamports r hc.apart.2 hc.apart.1]
  · cases h₃

/-! ## From the escrow to the refund -/

def Receives (s : Ledger) (p dest mint owner : Pubkey) (n : ℕ) : Prop :=
  ∃ t, tokenAt s dest = some t ∧ t.program = p ∧ t.mint = mint ∧ t.authority = owner ∧
    t.frozen = false ∧ t.amount+n ≤ u64Max

def Ordinary (s : Ledger) (p v : Pubkey) : Prop :=
  ∀ t, tokenAt s v = some t → t.program = p ∧ t.native = false ∧ t.frozen = false

theorem Receives.belongs {owner : Pubkey} (h : Receives s p dest mint owner n) :
    BelongsTo s dest mint owner := by
  obtain ⟨t,ht,-,rfl,rfl,-⟩ := h
  have hsome := tokenAt_some s dest t ht
  exact ⟨by have := tokenAt_size s dest t ht; omega,hsome.2.2.2.1.symm,hsome.2.2.2.2.1.symm⟩

theorem isMint_decimals (hm : IsMint p s mint) :
    (s mint).data[44]? = some (mintDecimalsAt s mint) := by
  have hl : 44 < (s mint).data.length := by
    rcases hm.2.1 with h | ⟨-,h,-⟩ <;> omega
  rw [mintDecimalsAt, byteAt]
  simp [hl]

structure Payable (s : Ledger) (p v mint dest owner r payee : Pubkey) (n : ℕ) : Prop where
  ordinary : Ordinary s p v
  receives : Receives s p dest mint owner n
  room : (s payee).lamports+(s v).lamports+(s r).lamports ≤ u64Max

structure Passes (E : Env) (p v dest r payee : Pubkey) : Prop where
  program : IsTokenProgram p
  passed : ∃ a ∈ E.accounts, a.key = p
  writable : E.writable v ∧ E.writable dest ∧ E.writable r ∧ E.writable payee

/-- No vault is the destination of a transfer to somebody else. -/
theorem Stocked.apart {owner : Pubkey} (h : Stocked s v mint r n) (hr : H.IsPda r)
    (ho : ¬H.IsPda owner) {mint' : Pubkey} {n' : ℕ} (hd : Receives s p dest mint' owner n') :
    v ≠ dest := by
  obtain ⟨-,t,hat,-,rfl,-⟩ := h
  obtain ⟨td,htd,-,-,rfl,-⟩ := hd
  rintro rfl
  rw [hat, Option.some_inj] at htd
  exact ho (htd ▸ hr)

theorem Stocked.refundable {owner : Pubkey} (hw : Wellformed E) (h : Stocked s v mint r n)
    (hp : Payable s p v mint dest owner r payee n) (ha : Passes E p v dest r payee)
    (hseeds : E.host.createProgramAddress seeds E.programId = some r)
    (ho : (s r).owner = E.programId) (hv : E.host.IsPda v) (hr : E.host.IsPda r)
    (hpayee : ¬E.host.IsPda payee) (howner : ¬E.host.IsPda owner) :
    Refundable E s p v mint dest r payee n seeds ∧ Closable E s v r payee := by
  have hvd := h.apart hr howner hp.receives
  obtain ⟨-,t,hat,hm,hauth,hamt,hsl,him⟩ := h
  obtain ⟨hprog,hnat,hfz⟩ := hp.ordinary t hat
  obtain ⟨td,htd,hdp,hdm,-,hdf,hroom⟩ := hp.receives
  obtain ⟨hwv,hwd,hwr,hwp⟩ := ha.writable
  have hne : ∀ {k}, E.host.IsPda k → k ≠ payee := fun hk he => hpayee (he ▸ hk)
  have hvr : r ≠ v := by
    rintro rfl
    exact hw.notToken (ho ▸ (tokenAt_some _ _ _ hat).1)
  have hsum := hp.room
  exact ⟨
    { program := ha.program
      passed := ha.passed
      signer := hseeds
      writable := ⟨hwv,hwd,hwp⟩
      isMint := hprog ▸ him
      vault := ⟨t,hat,hprog,hm,hauth,hamt,hsl,hnat,hfz⟩
      target := ⟨td,htd,hdp,hdm,hdf,hroom⟩
      apart := ⟨hvd,hne hv⟩
      room := by omega },
    { owner := ho
      writable := ⟨hwr,hwp⟩
      apart := ⟨hne hr,hvr⟩
      room := hsum }⟩

theorem Escrowed.refundable {q q' : Place} {bump : ℕ} {due : Bytes → Option (Pubkey × ℕ)}
    {owner : Pubkey} (hw : Wellformed E) (h : Escrowed E.host q q' bump due r s)
    (hdue : due (s r).data = some (mint,n)) (hn : q.Sized) (hn' : q'.Sized)
    (hv : (E.host.findProgramAddress q'.seeds E.programId).map Prod.fst = some v)
    (ho : (s r).owner = E.programId) (hpayee : ¬E.host.IsPda payee) (howner : ¬E.host.IsPda owner)
    (hp : Payable s p v mint dest owner r payee n) (ha : Passes E p v dest r payee) :
    Refundable E s p v mint dest r payee n (bumped q.seeds (byteAt (s r).data bump)) ∧
      Closable E s v r payee := by
  obtain ⟨⟨v',b'⟩,hv',rfl⟩ := Option.map_eq_some_iff.mp hv
  obtain ⟨w,b,hw',hst⟩ := h.stocked mint n hdue
  obtain rfl := found_unique hw' hv'
  exact hst.refundable hw hp ha (E.host.find_create _ _ _ _ h.address) ho
    (Place.At.of_find hn' hv').isPda (Place.At.of_find hn h.address).isPda hpayee howner

structure Refunds (E : Env) (x : Exec Unit) (m : Machine) (v mint dest r payee : Pubkey) (n : ℕ)
    (seeds : List Bytes) : Prop where
  does : wp x (fun _ m' => ∃ dec,
    Did E (refundActs splTokenId v mint dest r payee n dec seeds) m m') (fun _ => True) m
  succeeds : ∀ m', Did E (refundActs splTokenId v mint dest r payee n
    (mintDecimalsAt m.ledger mint) seeds) m m' → wp x (fun _ _ => True) (fun _ => False) m

/-- A refund out of a stocked vault succeeds exactly when the vault has no more
than it owes, and then it delivers. -/
theorem Refunds.settle {x : Exec Unit} (hw : Wellformed E) (ht : TokenRules E.host)
    (ha : TokenAccepts E.host) (h : Refunds E x m v mint dest r payee n seeds)
    (hr : Refundable E m.ledger splTokenId v mint dest r payee n seeds)
    (hc : Closable E m.ledger v r payee) :
    ((∃ m', x m = .ok () m') ↔ Exact m.ledger v n) ∧
      ∀ m', x m = .ok () m' → Delivered m.ledger m'.ledger v dest r payee n := by
  refine ⟨⟨?_,?_⟩,?_⟩
  · rintro ⟨m',hx⟩
    obtain ⟨dec,hd⟩ := wp_ok h.does hx
    exact refund_exact ht hr hd
  · intro hx
    obtain ⟨m',hd⟩ := refund_runs hw ht ha hr hc hx
    obtain ⟨_,m'',hm,-⟩ := wp_total (h.succeeds m' hd)
    exact ⟨m'',hm⟩
  · intro m' hx
    obtain ⟨dec,hd⟩ := wp_ok h.does hx
    exact refund_delivers hw ht hr hc hd

/-! ## Offers -/

section
variable {offerer offer ovault wantMint offererWant tokenProg : AccountInfo} {nonce : Bytes}
  {bump : UInt8}

theorem refundOffer_does :
    wp (refundOffer E offerer offer ovault wantMint offererWant tokenProg nonce bump n)
      (fun _ m' => ∃ dec, Did E (refundActs tokenProg.key ovault.key wantMint.key offererWant.key
        offer.key offerer.key n dec (bumped (offerSeeds offerer.key nonce) bump)) m m')
          (fun _ => True) m := by
  simp [refundOffer, tokenTransfer, tokenClose]
  intro offerPda b hb ovaultPda b' hb' _ _ _ dec _ s₁ h₁ s₂ h₂ s₃ h₃
  exact ⟨dec,s₁,h₁,s₂,h₂,s₃,h₃,rfl⟩

theorem refundOffer_total {b b' dec : UInt8}
    (hoff : E.host.findProgramAddress (offerSeeds offerer.key nonce) E.programId =
      some (offer.key,b))
    (hov : E.host.findProgramAddress (ovaultSeeds offerer.key nonce) E.programId =
      some (ovault.key,b'))
    (hbel : BelongsTo m.ledger offererWant.key wantMint.key offerer.key)
    (hdec : (m.ledger wantMint.key).data[44]? = some dec)
    (hd : Did E (refundActs tokenProg.key ovault.key wantMint.key offererWant.key offer.key
      offerer.key n dec (bumped (offerSeeds offerer.key nonce) bump)) m m') :
    wp (refundOffer E offerer offer ovault wantMint offererWant tokenProg nonce bump n)
      (fun _ _ => True) (fun _ => False) m := by
  obtain ⟨s₁,h₁,s₂,h₂,s₃,h₃,rfl⟩ := hd
  simp only [transferAct, closeAct, next_ledger] at h₁ h₂ h₃
  simp [refundOffer, tokenTransfer, tokenClose, hoff, hov, hbel, hdec, h₁, h₂, h₃,
    close_effect_le h₃]

end

structure OfferAt (E : Env) (s : Ledger) (offerer : Pubkey) (nonce : Bytes)
    (offer ovault mint dest : Pubkey) :
    Prop where
  isOffer : IsOffer E s offer
  party : keyAt (s offer).data oOfferer = offerer
  wanted : keyAt (s offer).data oWantMint = mint
  address : ∃ b, E.host.findProgramAddress (offerSeeds offerer nonce) E.programId = some (offer,b)
  vault : ∃ b, E.host.findProgramAddress (ovaultSeeds offerer nonce) E.programId = some (ovault,b)
  belongs : BelongsTo s dest mint offerer
  isMint : ∃ p, IsMint p s mint
  nonce : nonce.length = 32

section
variable {caller offerer offer ovault : Pubkey} {nonce : Bytes}

theorem withdrawOffer_refunds (h : OfferAt E m.ledger offerer nonce offer ovault mint dest)
    (ha : E.accounts = [⟨offerer,true,true⟩,⟨offer,false,true⟩,⟨ovault,false,true⟩,
      ⟨mint,false,false⟩, ⟨dest,false,true⟩,⟨splTokenId,false,false⟩]) :
    Refunds E (withdrawOffer E nonce) m ovault mint dest offer offerer
      (u64At (m.ledger offer).data oWantAmt) (offerSigner offerer (m.ledger offer).data nonce) := by
  constructor
  · simp [withdrawOffer, ha, h.nonce, slice_all]
    intro _ _ _ _ _
    exact refundOffer_does
  · intro m' hd
    obtain ⟨b,hb⟩ := h.address
    obtain ⟨b',hb'⟩ := h.vault
    obtain ⟨p,hp⟩ := h.isMint
    simp [withdrawOffer, ha, h.nonce, slice_all, h.party, h.wanted, h.isOffer.owner,
      h.isOffer.length, h.isOffer.isOpen]
    exact refundOffer_total hb hb' h.belongs (isMint_decimals hp) hd

theorem expireOffer_refunds (h : OfferAt E m.ledger offerer nonce offer ovault mint dest)
    (ha : E.accounts = [⟨caller,true,true⟩,⟨offer,false,true⟩,⟨ovault,false,true⟩,
      ⟨offerer,false,true⟩, ⟨mint,false,false⟩,⟨dest,false,true⟩,⟨splTokenId,false,false⟩])
    (hx : i64At (m.ledger offer).data oExpiry ≤ E.clock) :
    Refunds E (expireOffer E nonce) m ovault mint dest offer offerer
      (u64At (m.ledger offer).data oWantAmt) (offerSigner offerer (m.ledger offer).data nonce) := by
  constructor
  · simp [expireOffer, ha, h.nonce, slice_all]
    intro _ _ _ _ _ _
    exact refundOffer_does
  · intro m' hd
    obtain ⟨b,hb⟩ := h.address
    obtain ⟨b',hb'⟩ := h.vault
    obtain ⟨p,hp⟩ := h.isMint
    simp [expireOffer, ha, h.nonce, slice_all, h.party, h.wanted, h.isOffer.owner, h.isOffer.length,
      h.isOffer.isOpen, hx]
    exact refundOffer_total hb hb' h.belongs (isMint_decimals hp) hd

end

/-! ## Calls of the client -/

structure Call.Sends (c : Call) (H : Host) (ix : Sdk.Instruction) : Prop where
  on : c.On H
  accounts : c.env.accounts = ix.accounts
  data : c.data = ix.data

theorem Call.result_iff {c : Call} {tag : UInt8} (hd : c.data = tag :: d) :
    c.result s = some m ↔ handler c.env tag d ⟨s,[]⟩ = .ok () m := by
  constructor
  · intro h
    obtain ⟨tag',d',hd',hh⟩ := Call.handled h
    rw [hd] at hd'
    cases hd'
    exact hh
  · exact Call.result_of_ok hd

theorem signed_plain {k : Pubkey} (hw : Wellformed E) (h : E.signed k) : ¬E.host.IsPda k := by
  obtain ⟨a,ha,rfl,hs⟩ := h
  exact hw.signers a ha hs

section
variable {offerer offer : Pubkey} {nonce : Bytes} {c : Call}

inductive OfferRefund (H : Host) (s : Ledger) (offerer : Pubkey) (nonce : Bytes) (offer : Pubkey)
    (c : Call) : Prop
  | withdraw (ix : Sdk.Instruction)
      (hix : Sdk.withdrawOfferIx H offerer nonce (keyAt (s offer).data oWantMint) = some ix)
      (hc : c.Sends H ix)
  | expire (caller : Pubkey) (ix : Sdk.Instruction)
      (hix : Sdk.expireOfferIx H caller offerer nonce (keyAt (s offer).data oWantMint) = some ix)
      (hc : c.Sends H ix) (hx : i64At (s offer).data oExpiry ≤ c.env.clock)

structure OfferStands (H : Host) (s : Ledger) (offerer : Pubkey) (nonce : Bytes) (offer : Pubkey) :
    Prop where
  owner : (s offer).owner = H.programId
  record : OfferHolds offerer nonce (s offer).data
  escrow : Escrowed H (.offer offerer nonce) (.ovault offerer nonce) oBump offerDue offer s
  party : ¬H.IsPda offerer
  nonce : nonce.length = 32

theorem offer_stands (hs : SystemRules H) (ht : TokenRules H) (hf : Confined H) (hno : NoSeizure H)
    (hc : H.CollisionFree) (hsys : H.programId ≠ systemId) (hg : Genesis H s₀)
    (hrun : Run H (Assumed H) s₀ s) (hk : (Place.offer offerer nonce).At H offer)
    (hl : Live H (s offer)) :
    OfferStands H s offerer nonce offer := by
  have hkeyed : Run H Keyed s₀ s :=
    Relation.ReflTransGen.mono (fun _ _ ⟨a,h,hok⟩ => ⟨a,h,hok.solid.1⟩) _ _ hrun
  have hslot := run_slot hs hf hc hsys hg hkeyed rfl hk
  obtain ⟨c₀,s₁,m₀,hopen⟩ := exists_opening hs hf hc hsys hg (fun a s s' h => h.solid.1) hrun
    rfl hk hl
  obtain ⟨d,k,bump,vbump,dec,-,hmade,rfl,rfl,hn⟩ := hopen.offer hs hf hc hsys hk
  exact
    { owner := hl.1
      record := (hslot.live_of hsys hl).1
      escrow := offer_escrowed hs ht hf hno hc hsys hg hrun hk hl
      party := hopen.on.host ▸ signed_plain hopen.on.wellformed hmade.signed
      nonce := by rw [← hn]; exact slice_length _ _ _ (by have := hmade.length; omega) }

/-- The accounts of a refund, as the client derives them. -/
theorem OfferStands.at (h : OfferStands E.host s offerer nonce offer)
    (hv : Sdk.ovaultPda E.host offerer nonce = some v)
    (hpay : Payable s splTokenId v (keyAt (s offer).data oWantMint) dest offerer offer offerer n) :
    OfferAt E s offerer nonce offer v (keyAt (s offer).data oWantMint) dest := by
  obtain ⟨w,b,hw,hst⟩ := h.escrow.stocked (keyAt (s offer).data oWantMint) _ rfl
  obtain ⟨-,t,-,-,-,-,-,him⟩ := hst
  obtain ⟨⟨v',b'⟩,hv',rfl⟩ := Option.map_eq_some_iff.mp hv
  exact
    { isOffer := ⟨h.owner,h.record.length,h.record.isOpen⟩
      party := h.record.offerer
      wanted := rfl
      address := ⟨_,h.escrow.address⟩
      vault := ⟨b',hv'⟩
      belongs := hpay.receives.belongs
      isMint := ⟨_,him⟩
      nonce := h.nonce }

/-- In every reachable state the refund of a live offer succeeds exactly while
its vault has no more than the bid, and then the bid and all rent are back. -/
theorem offer_refund (hs : SystemRules H) (ht : TokenRules H) (ha : TokenAccepts H)
    (hf : Confined H) (hno : NoSeizure H) (hc : H.CollisionFree) (hsys : H.programId ≠ systemId)
    (hg : Genesis H s₀) (hrun : Run H (Assumed H) s₀ s)
    (hk : (Place.offer offerer nonce).At H offer) (hl : Live H (s offer))
    (hcall : OfferRefund H s offerer nonce offer c) (hv : Sdk.ovaultPda H offerer nonce = some v)
    (hdest : Sdk.ata H offerer (keyAt (s offer).data oWantMint) splTokenId = some dest)
    (hpay : Payable s splTokenId v (keyAt (s offer).data oWantMint) dest offerer offer offerer
      (u64At (s offer).data oWantAmt)) :
    ((∃ m, c.result s = some m) ↔ Exact s v (u64At (s offer).data oWantAmt)) ∧
      ∀ m, c.result s = some m →
        Delivered s m.ledger v dest offer offerer (u64At (s offer).data oWantAmt) := by
  have h := offer_stands hs ht hf hno hc hsys hg hrun hk hl
  have hoffer : Sdk.offerPda H offerer nonce = some offer := by
    exact congrArg (Option.map Prod.fst) h.escrow.address
  cases hcall with
  | withdraw ix hix hsent =>
    obtain ⟨⟨rfl,hw⟩,hacc,hdata⟩ := hsent
    simp only [Sdk.withdrawOfferIx, hoffer, hv, hdest, Option.bind_eq_bind, Option.bind_some,
      Option.pure_def, Option.some_inj] at hix
    subst hix
    have hp : Passes c.env splTokenId v dest offer offerer := by
      constructor <;> simp [Env.writable, hacc, IsTokenProgram]
    obtain ⟨hr,hcl⟩ := h.escrow.refundable hw rfl h.nonce h.nonce hv h.owner h.party h.party hpay hp
    simp only [Call.result_iff hdata]
    exact (withdrawOffer_refunds (m := ⟨s,[]⟩) (h.at hv hpay) hacc).settle hw ht ha hr hcl
  | expire caller ix hix hsent hx =>
    obtain ⟨⟨rfl,hw⟩,hacc,hdata⟩ := hsent
    simp only [Sdk.expireOfferIx, hoffer, hv, hdest, Option.bind_eq_bind, Option.bind_some,
      Option.pure_def, Option.some_inj] at hix
    subst hix
    have hp : Passes c.env splTokenId v dest offer offerer := by
      constructor <;> simp [Env.writable, hacc, IsTokenProgram]
    obtain ⟨hr,hcl⟩ := h.escrow.refundable hw rfl h.nonce h.nonce hv h.owner h.party h.party hpay hp
    simp only [Call.result_iff hdata]
    exact (expireOffer_refunds (m := ⟨s,[]⟩) (h.at hv hpay) hacc hx).settle hw ht ha hr hcl

end

/-! ## Swaps -/

section
variable {maker swap vault giveMint makerGive tokenProg : AccountInfo} {nonce : Bytes}
  {bump : UInt8}

theorem refundAndClose_does :
    wp (refundAndClose E swap vault maker giveMint makerGive tokenProg nonce bump n)
      (fun _ m' => ∃ dec, Did E (refundActs tokenProg.key vault.key giveMint.key makerGive.key
        swap.key
        maker.key n dec (bumped (swapSeeds maker.key nonce) bump)) m m') (fun _ => True) m := by
  simp [refundAndClose, createAddress, tokenTransfer, tokenClose]
  intro _ swapPda hs _ vaultPda b hb _ dec _ s₁ h₁ s₂ h₂ s₃ h₃
  exact ⟨dec,s₁,h₁,s₂,h₂,s₃,h₃,rfl⟩

theorem refundAndClose_total {b' dec : UInt8}
    (hswap : E.host.createProgramAddress (bumped (swapSeeds maker.key nonce) bump) E.programId =
      some swap.key)
    (hv : E.host.findProgramAddress (vaultSeeds maker.key nonce) E.programId = some (vault.key,b'))
    (hbel : BelongsTo m.ledger makerGive.key giveMint.key maker.key)
    (hdec : (m.ledger giveMint.key).data[44]? = some dec)
    (hd : Did E (refundActs tokenProg.key vault.key giveMint.key makerGive.key swap.key maker.key n
      dec (bumped (swapSeeds maker.key nonce) bump)) m m') :
    wp (refundAndClose E swap vault maker giveMint makerGive tokenProg nonce bump n)
      (fun _ _ => True) (fun _ => False) m := by
  obtain ⟨s₁,h₁,s₂,h₂,s₃,h₃,rfl⟩ := hd
  simp only [transferAct, closeAct, next_ledger] at h₁ h₂ h₃
  simp [refundAndClose, createAddress, tokenTransfer, tokenClose, hswap, hv, hbel, hdec, h₁, h₂, h₃,
    close_effect_le h₃]

end

section
variable {caller maker swap : Pubkey} {nonce : Bytes} {c : Call}

structure SwapStands (H : Host) (s : Ledger) (maker : Pubkey) (nonce : Bytes) (swap : Pubkey) :
    Prop where
  owner : (s swap).owner = H.programId
  record : RestedHolds maker nonce (s swap).data
  escrow : Escrowed H (.swap maker nonce) (.vault maker nonce) sBump swapDue swap s
  party : ¬H.IsPda maker
  nonce : nonce.length = 32

theorem swap_stands (hs : SystemRules H) (ht : TokenRules H) (hf : Confined H) (hno : NoSeizure H)
    (hc : H.CollisionFree) (hsys : H.programId ≠ systemId) (hg : Genesis H s₀)
    (hrun : Run H (Assumed H) s₀ s) (hk : (Place.swap maker nonce).At H swap) (hl : Live H (s swap))
    {c₀ : Call} {s₁ : Ledger} (hopen : OpenedBy H (Assumed H) (.swap maker nonce) swap s₀ s c₀ s₁ m)
    (hd : c₀.data = 0 :: d) :
    SwapStands H s maker nonce swap := by
  have hkeyed : Run H Keyed s₀ s :=
    Relation.ReflTransGen.mono (fun _ _ ⟨a,h,hok⟩ => ⟨a,h,hok.solid.1⟩) _ _ hrun
  have hslot := run_slot hs hf hc hsys hg hkeyed rfl hk
  have hesc := hopen.swap_escrowed hs ht hf hno hc hk hd
  obtain ⟨k,bump,vbump,dec,hopened,rfl,rfl,rfl⟩ := hopen.swap hs hf hc hk hd
  exact
    { owner := hl.1
      record := (hslot.live_of hsys hl).1.1
      escrow := hesc
      party := hopen.on.host ▸ signed_plain hopen.on.wellformed hopened.slot.signed
      nonce := hopened.slot.nonce_length }

theorem expire_refunds (h : SwapStands E.host m.ledger maker nonce swap)
    (hv : Sdk.vaultPda E.host maker nonce = some v)
    (hpay : Payable m.ledger splTokenId v (keyAt (m.ledger swap).data sGiveMint) dest maker swap
      maker n)
    (ha : E.accounts = [⟨caller,true,true⟩,⟨swap,false,true⟩,⟨v,false,true⟩,⟨maker,false,true⟩,
      ⟨keyAt (m.ledger swap).data sGiveMint,false,false⟩,⟨dest,false,true⟩,
      ⟨splTokenId,false,false⟩])
    (hx : i64At (m.ledger swap).data sExpiry ≤ E.clock) :
    Refunds E (expire E nonce) m v (keyAt (m.ledger swap).data sGiveMint) dest swap maker
      (u64At (m.ledger swap).data sGiveAmt)
      (bumped (swapSeeds maker nonce) (byteAt (m.ledger swap).data sBump)) := by
  constructor
  · simp [expire, ha, h.nonce, slice_all]
    intro _ _ _ _ _
    exact refundAndClose_does
  · intro m' hd
    obtain ⟨⟨v',b'⟩,hv',rfl⟩ := Option.map_eq_some_iff.mp hv
    obtain ⟨w,b,-,hst⟩ := h.escrow.stocked (keyAt (m.ledger swap).data sGiveMint) _ rfl
    obtain ⟨-,t,-,-,-,-,-,him⟩ := hst
    simp [expire, ha, h.nonce, slice_all, h.owner, h.record.length, h.record.isOpen,
      h.record.maker, hx]
    exact refundAndClose_total (E.host.find_create _ _ _ _ h.escrow.address) hv'
      hpay.receives.belongs (isMint_decimals him) hd

/-- In every reachable state, anybody's refund of an expired swap that
`open_swap` opened succeeds exactly while its vault has no more than the goods,
and then the goods and all rent are back with the maker. -/
theorem swap_refund (hs : SystemRules H) (ht : TokenRules H) (ha : TokenAccepts H) (hf : Confined H)
    (hno : NoSeizure H) (hc : H.CollisionFree) (hsys : H.programId ≠ systemId) (hg : Genesis H s₀)
    (hrun : Run H (Assumed H) s₀ s) (hk : (Place.swap maker nonce).At H swap) (hl : Live H (s swap))
    {c₀ : Call} {s₁ : Ledger} (hopen : OpenedBy H (Assumed H) (.swap maker nonce) swap s₀ s c₀ s₁ m)
    (hd : c₀.data = 0 :: d) {ix : Sdk.Instruction} (hx : i64At (s swap).data sExpiry ≤ c.env.clock)
    (hix : Sdk.expireIx H caller maker nonce (keyAt (s swap).data sGiveMint) = some ix)
    (hsent : c.Sends H ix) (hv : Sdk.vaultPda H maker nonce = some v)
    (hdest : Sdk.ata H maker (keyAt (s swap).data sGiveMint) splTokenId = some dest)
    (hpay : Payable s splTokenId v (keyAt (s swap).data sGiveMint) dest maker swap maker
      (u64At (s swap).data sGiveAmt)) :
    ((∃ m, c.result s = some m) ↔ Exact s v (u64At (s swap).data sGiveAmt)) ∧
      ∀ m, c.result s = some m →
        Delivered s m.ledger v dest swap maker (u64At (s swap).data sGiveAmt) := by
  have h := swap_stands hs ht hf hno hc hsys hg hrun hk hl hopen hd
  have hswap : Sdk.swapPda H maker nonce = some swap :=
    congrArg (Option.map Prod.fst) h.escrow.address
  obtain ⟨⟨rfl,hw⟩,hacc,hdata⟩ := hsent
  simp only [Sdk.expireIx, hswap, hv, hdest, Option.bind_eq_bind, Option.bind_some,
    Option.pure_def, Option.some_inj] at hix
  subst hix
  have hp : Passes c.env splTokenId v dest swap maker := by
    constructor <;> simp [Env.writable, hacc, IsTokenProgram]
  obtain ⟨hr,hcl⟩ := h.escrow.refundable hw rfl h.nonce h.nonce hv h.owner h.party h.party hpay hp
  simp only [Call.result_iff hdata]
  exact (expire_refunds (m := ⟨s,[]⟩) h hv hpay hacc hx).settle hw ht ha hr hcl

end

section
open Xete.Market Xete.Reference

/-! ## A kiosk: the bazaar with an associated account of the bidder -/

def bidderAta : Pubkey := keyOf 35

def kioskTable : Table := bazaarTable ++
  [((bumped [Market.offerer.bytes,splTokenId.bytes,mintB.bytes] 255).flatten,ataProgramId,
    bidderAta)]

def kiosk : Host := host programKey kioskTable

theorem kiosk_collisionFree : kiosk.CollisionFree := host_collisionFree _ _ (by decide)

theorem kiosk_confined : Confined kiosk := host_confined _ _ market_apart

theorem kiosk_noSeizure : NoSeizure kiosk := host_noSeizure _ _ market_apart

def kioskStart : Ledger :=
  Function.update (bazaarStart 0) bidderAta (tokenAccount mintB Market.offerer 0)

theorem kiosk_genesis : Genesis kiosk kioskStart :=
  genesis_of kiosk_collisionFree ⟨trivial,255,by decide⟩ (by decide)

def kioskCall (clock : ℤ) (ix : Sdk.Instruction) : Call where
  env :=
    { host := kiosk
      accounts := ix.accounts
      clock := clock
      instructions := []
      current := 0 }
  data := ix.data

theorem kioskCall_sends {clock : ℤ} {ix : Sdk.Instruction}
    (h : ∀ a ∈ ix.accounts, a.isSigner = true → a.key ∉ kioskTable.map fun e => e.2.2) :
    (kioskCall clock ix).Sends kiosk ix where
  on :=
    { host := rfl
      wellformed :=
        { signers := fun a ha hs hp => h a ha hs (host_isPda _ _ _ hp)
          notSystem := market_apart.notSystem
          notToken := market_apart.notToken
          notCore := market_apart.notCore } }
  accounts := rfl
  data := rfl

def kioskOpen : Call := kioskCall 0 ⟨openAtBazaar.env.accounts,openAtBazaar.data⟩

def kioskBid : Call := kioskCall 0 ⟨(makeOfferCall 40).env.accounts,(makeOfferCall 40).data⟩

def kioskExpireOffer : Sdk.Instruction where
  accounts := [⟨Market.taker,true,true⟩,⟨offerKey,false,true⟩,⟨ovaultKey,false,true⟩,
    ⟨Market.offerer,false,true⟩,⟨mintB,false,false⟩,⟨bidderAta,false,true⟩,⟨splTokenId,false,false⟩]
  data := 7 :: Market.nonce

instance : Decidable (Ordinary s p v) :=
  decidable_of_iff (∀ t ∈ tokenAt s v, t.program = p ∧ t.native = false ∧ t.frozen = false) Iff.rfl

instance {owner : Pubkey} : Decidable (Receives s p dest mint owner n) :=
  decidable_of_iff (∃ t ∈ tokenAt s dest, t.program = p ∧ t.mint = mint ∧ t.authority = owner ∧
    t.frozen = false ∧ t.amount+n ≤ u64Max) Iff.rfl

/-- A bid on the swap of 100 for 50, which anybody can send back. -/
theorem offer_refund_expired : ∃ m₁ m₂ m₃ : Machine, kioskOpen.result kioskStart = some m₁ ∧
    kioskBid.result m₁.ledger = some m₂ ∧ (kioskCall 2000 kioskExpireOffer).result m₂.ledger =
      some m₃ ∧
    Delivered m₂.ledger m₃.ledger ovaultKey bidderAta offerKey Market.offerer 40 := by
  have h : ((kioskOpen.result kioskStart).any fun m₁ => (kioskBid.result m₁.ledger).any fun m₂ =>
      decide (GenuineTokens (m₁.trace.map Event.act)) &&
        (decide (GenuineTokens (m₂.trace.map Event.act)) &&
      (decide (Live kiosk (m₂.ledger offerKey)) &&
        (decide (keyAt (m₂.ledger offerKey).data oWantMint = mintB) &&
      (decide (u64At (m₂.ledger offerKey).data oWantAmt = 40) &&
      (decide (i64At (m₂.ledger offerKey).data oExpiry ≤ 2000) &&
      (decide (Ordinary m₂.ledger splTokenId ovaultKey) &&
      (decide (Receives m₂.ledger splTokenId bidderAta mintB Market.offerer 40) &&
      (decide ((m₂.ledger Market.offerer).lamports+(m₂.ledger ovaultKey).lamports+
        (m₂.ledger offerKey).lamports ≤ u64Max) &&
        (tokenAt m₂.ledger ovaultKey).any fun t => decide (t.amount = 40)))))))))) = true := by
    decide +kernel
  simp only [Option.any_eq_true, Bool.and_eq_true, decide_eq_true_eq] at h
  obtain ⟨m₁,h₁,m₂,h₂,hg₁,hg₂,hl,hmint,hamt,hx,hord,hrec,hroom,hexact⟩ := h
  have hrun : Run kiosk (Assumed kiosk) kioskStart m₂.ledger := by
    refine .tail (.single ⟨.call kioskOpen,.call _ _ m₁ (kioskCall_sends (by decide)).on h₁,?_⟩)
      ⟨.call kioskBid,.call _ _ m₂ (kioskCall_sends (by decide)).on h₂,?_⟩
    · exact assumed_call (by decide) h₁ hg₁
    · exact assumed_call (by decide) h₂ hg₂
  have hix : Sdk.expireOfferIx kiosk Market.taker Market.offerer Market.nonce
      (keyAt (m₂.ledger offerKey).data oWantMint) = some kioskExpireOffer := by
    rw [hmint]
    rfl
  have hdest : Sdk.ata kiosk Market.offerer (keyAt (m₂.ledger offerKey).data oWantMint) splTokenId =
      some bidderAta := by
    rw [hmint]
    rfl
  obtain ⟨hiff,hdone⟩ := offer_refund (host_systemRules _ _) (host_tokenRules _ _)
    (host_tokenAccepts _ _)
    kiosk_confined kiosk_noSeizure kiosk_collisionFree market_apart.notSystem kiosk_genesis hrun
    (⟨rfl,255,by decide⟩ : (Place.offer Market.offerer Market.nonce).At kiosk offerKey) hl
    (c := kioskCall 2000 kioskExpireOffer) (.expire Market.taker kioskExpireOffer hix
    (kioskCall_sends (by decide)) hx) rfl hdest (by rw [hmint, hamt]; exact ⟨hord,hrec,hroom⟩)
  rw [hamt] at hiff hdone
  obtain ⟨m₃,h₃⟩ := hiff.mpr hexact
  exact ⟨m₁,m₂,m₃,h₁,h₂,h₃,hdone m₃ h₃⟩

def kioskExpire : Sdk.Instruction where
  accounts := [⟨Market.taker,true,true⟩,⟨swapKey,false,true⟩,⟨vaultKey,false,true⟩,
    ⟨Market.maker,false,true⟩,⟨mintA,false,false⟩,⟨makerAta,false,true⟩,⟨splTokenId,false,false⟩]
  data := 3 :: Market.nonce

/-- The swap of 100 for 50, which anybody can send back after its deadline. -/
theorem swap_refund_expired : ∃ m₁ m₂ : Machine, kioskOpen.result kioskStart = some m₁ ∧
    (kioskCall 2000 kioskExpire).result m₁.ledger = some m₂ ∧
    Delivered m₁.ledger m₂.ledger vaultKey makerAta swapKey Market.maker 100 := by
  have h : ((kioskOpen.result kioskStart).any fun m₁ =>
      decide (GenuineTokens (m₁.trace.map Event.act)) &&
      (decide (Live kiosk (m₁.ledger swapKey)) &&
        (decide (keyAt (m₁.ledger swapKey).data sGiveMint = mintA) &&
      (decide (u64At (m₁.ledger swapKey).data sGiveAmt = 100) &&
      (decide (i64At (m₁.ledger swapKey).data sExpiry ≤ 2000) &&
      (decide (Ordinary m₁.ledger splTokenId vaultKey) &&
      (decide (Receives m₁.ledger splTokenId makerAta mintA Market.maker 100) &&
      (decide ((m₁.ledger Market.maker).lamports+(m₁.ledger vaultKey).lamports+
        (m₁.ledger swapKey).lamports ≤ u64Max) &&
        (tokenAt m₁.ledger vaultKey).any fun t => decide (t.amount = 100))))))))) = true := by
    decide +kernel
  simp only [Option.any_eq_true, Bool.and_eq_true, decide_eq_true_eq] at h
  obtain ⟨m₁,h₁,hg₁,hl,hmint,hamt,hx,hord,hrec,hroom,hexact⟩ := h
  have hstep : Step kiosk (.call kioskOpen) kioskStart m₁.ledger :=
    .call _ _ m₁ (kioskCall_sends (by decide)).on h₁
  have hok : Assumed kiosk (.call kioskOpen) kioskStart m₁.ledger := assumed_call (by decide) h₁ hg₁
  have hvacant : Vacant kioskStart swapKey :=
    kiosk_genesis (.swap Market.maker Market.nonce) swapKey (by simp) ⟨rfl,255,by decide⟩
  have hdead : ¬Live kiosk (kioskStart swapKey) := fun hl =>
    market_apart.notSystem (hl.1.symm.trans hvacant.1)
  have hopen : OpenedBy kiosk (Assumed kiosk) (.swap Market.maker Market.nonce) swapKey kioskStart
    m₁.ledger kioskOpen
      kioskStart m₁ :=
    { on := (kioskCall_sends (by decide)).on
      slot := .vacant hvacant.1 hvacant.2
      meets := hok
      result := h₁
      episode := ⟨.refl,⟨_,hstep,hok⟩,hdead,hl,.refl⟩ }
  have hix : Sdk.expireIx kiosk Market.taker Market.maker Market.nonce
      (keyAt (m₁.ledger swapKey).data sGiveMint) = some kioskExpire := by
    rw [hmint]
    rfl
  have hdest : Sdk.ata kiosk Market.maker (keyAt (m₁.ledger swapKey).data sGiveMint) splTokenId =
      some makerAta := by
    rw [hmint]
    rfl
  obtain ⟨hiff,hdone⟩ := swap_refund (host_systemRules _ _) (host_tokenRules _ _)
    (host_tokenAccepts _ _)
    kiosk_confined kiosk_noSeizure kiosk_collisionFree market_apart.notSystem kiosk_genesis
    (.single ⟨_,hstep,hok⟩)
    (⟨rfl,255,by decide⟩ : (Place.swap Market.maker Market.nonce).At kiosk swapKey) hl hopen rfl
    (c := kioskCall 2000 kioskExpire) hx hix (kioskCall_sends (by decide)) rfl hdest
    (by rw [hmint, hamt]; exact ⟨hord,hrec,hroom⟩)
  rw [hamt] at hiff hdone
  obtain ⟨m₂,h₂⟩ := hiff.mpr hexact
  exact ⟨m₁,m₂,h₁,h₂,hdone m₂ h₂⟩

end

end Xete.Swap
