import XetePrograms.Swap.Market
import XetePrograms.Swap.OrderOnce
import XetePrograms.Swap.Supplied
import XetePrograms.Swap.Zeroed

/-!
# Lamports at an address of the program

Anyone may send lamports to any address, and the system program creates no
account where lamports lie. So a record, a vault or a marker whose address was
prefunded is never created, and nothing but that stops an otherwise valid call.
-/

set_option autoImplicit false

namespace Xete.Swap
open Xete.Octets Xete.Weakest Xete.Chain Xete.Token Xete.Runtime Xete.Rules

variable {E : Env} {H : Host} {m m' : Machine} {d : Bytes} {tag : UInt8} {k payer : Pubkey}
  {s s' : Ledger} {as : List Act} {c : Call}

/-! ## Creating several accounts -/

inductive Founding (payer : Pubkey) : Act → Prop
  | create (acct : Pubkey) (n space : ℕ) (owner : Pubkey) (seeds : List Bytes)
      (h : owner ≠ systemId) : Founding payer
      (.invoke (.createAccount payer acct n space owner) (some seeds))
  | init (tokenProg acct mint owner : Pubkey) (h : IsTokenProgram tokenProg) :
      Founding payer (initAct tokenProg acct mint owner)
  | transfer (tokenProg source mint dest authority : Pubkey) (n : ℕ) (dec : UInt8)
      (seeds : Option (List Bytes)) (h : IsTokenProgram tokenProg) :
      Founding payer (transferAct tokenProg source mint dest authority n dec seeds)
  | write (acct : Pubkey) (b : Bytes) : Founding payer (.write acct b)
  | log (b : Bytes) : Founding payer (.log b)

theorem tokenAt_data_ne {t : TokenAccount} (h : tokenAt s k = some t) : (s k).data ≠ [] := by
  intro hd
  have hl := (tokenAt_some s k t h).2.1
  rw [hd] at hl
  rcases hl with hl | ⟨-,hl,-⟩ <;> simp at hl

/-- An address that is empty after such an act was the same before it. -/
theorem Founding.before {a : Act} (hs : SystemRules E.host) (ht : TokenRules E.host)
    (hsys : E.programId ≠ systemId) (hk : k ≠ payer) (h : Founding payer a)
    (he : a.effect E s = some s') (hv : Vacant s' k) : s k = s' k := by
  have hsame : (s' k).owner = (s k).owner → (s' k).data = (s k).data →
      (s' k).lamports = (s k).lamports → s k = s' k := by
    intro h₁ h₂ h₃
    cases hx : s k
    cases hy : s' k
    simp_all
  cases h with
  | create acct n space owner seeds ho =>
    simp only [Act.effect] at he
    split at he
    · obtain ⟨-,-,hacct,hrest⟩ := hs.create _ _ _ _ _ _ _ he
      have hne : k ≠ acct := by
        rintro rfl
        rw [Vacant, hacct] at hv
        exact ho hv.1
      obtain ⟨h₁,h₂,h₃⟩ := hrest k hne
      exact hsame h₁ h₂ (h₃ hk)
    · cases he
  | init tokenProg acct mint owner hp =>
    simp only [initAct, Act.effect] at he
    split at he
    · obtain ⟨-,-,-,-,⟨t,hat,-⟩,hown,hdata⟩ := ht.init _ _ _ _ _ _ hp he
      have hne : k ≠ acct := by
        rintro rfl
        exact tokenAt_data_ne hat hv.2
      exact hsame (hown k).1 (hdata k hne) (hown k).2
    · cases he
  | transfer tokenProg source mint dest authority n dec seeds hp =>
    simp only [transferAct, Act.effect] at he
    split at he
    · obtain ⟨ts,td,hsrc,hdst,-,-,-,-,-,-,hself,hmove,-,hrest,-⟩ :=
        ht.transfer _ _ _ _ _ _ _ _ _ hp he
      by_cases hsd : source = dest
      · have hne : k ≠ source := by
          rintro rfl
          apply tokenAt_data_ne hsrc
          rw [← hself hsd]
          exact hv.2
        exact (hrest k hne (hsd ▸ hne)).symm
      · obtain ⟨⟨ts',hsrc',-⟩,⟨td',hdst',-⟩⟩ := hmove hsd
        have hne : k ≠ source := by
          rintro rfl
          exact tokenAt_data_ne hsrc' hv.2
        have hne' : k ≠ dest := by
          rintro rfl
          exact tokenAt_data_ne hdst' hv.2
        exact (hrest k hne hne').symm
    · cases he
  | write acct b =>
    simp only [Act.effect] at he
    split at he
    · rename_i hc
      cases he
      have hne : k ≠ acct := by
        rintro rfl
        apply hsys
        rw [← hc.1, ← setData_owner s k b k]
        exact hv.1
      exact (setData_other s acct b k hne).symm
    · cases he
  | log b =>
    cases he
    rfl

theorem founding_before (hs : SystemRules E.host) (ht : TokenRules E.host)
    (hsys : E.programId ≠ systemId) (hk : k ≠ payer) (hpre : ∀ a ∈ as, Founding payer a)
    (hr : Ran E as s s') (hv : Vacant s' k) : s k = s' k := by
  induction as generalizing s with
  | nil =>
    cases hr
    rfl
  | cons a as ih =>
    obtain ⟨s₁,he,hr⟩ := hr
    have hrest := ih (fun b hb => hpre b (List.mem_cons_of_mem a hb)) hr
    have hv₁ : Vacant s₁ k := by rwa [Vacant, hrest]
    exact ((hpre a (by simp)).before hs ht hsys hk he hv₁).trans hrest

/-- No lamports lay at an address where an account was created. -/
theorem founded_empty (pre : List Act) {post : List Act} {space : ℕ} {owner : Pubkey}
    {seeds : List Bytes} (hs : SystemRules E.host) (ht : TokenRules E.host)
    (hsys : E.programId ≠ systemId) (hk : k ≠ payer) (hpre : ∀ a ∈ pre, Founding payer a)
    (hd : Did E (pre ++ createAct E payer k space owner seeds :: post) m m') :
    (m.ledger k).lamports = 0 := by
  obtain ⟨m₁,hd₁,s₁,he,-⟩ := (did_append _ _ m m').mp hd
  have hv := create_vacant hs he
  rw [founding_before hs ht hsys hk hpre hd₁.ran hv]
  simp only [createAct, Act.effect] at he
  split at he
  · exact (hs.create _ _ _ _ _ _ _ he).2.1
  · cases he

/-! ## Opening, listing and offering -/

def openTags : List UInt8 := [0,4,12,18,22,26,30,34]

def createdPlaces (tag : UInt8) (payer : Pubkey) (d : Bytes) : List Place :=
  let nonce := slice d 0 32
  match tag with
  | 0 => [.swap payer nonce,.vault payer nonce]
  | 4 => [.offer payer nonce,.ovault payer nonce]
  | 12 => .basket payer nonce ::
      (List.range (giveCount d)).map fun i => .bvault payer nonce (UInt8.ofNat i)
  | 18 => [.swap payer nonce]
  | 22 => [.swap payer nonce]
  | 26 => [.listing payer nonce]
  | 30 => [.listing payer nonce]
  | 34 => [.listing payer nonce]
  | _ => []

def createdAt (E : Env) (tag : UInt8) (d : Bytes) : List Pubkey :=
  match E.accounts[0]? with
  | none => []
  | some a => (createdPlaces tag a.key d).filterMap fun p =>
      (E.host.findProgramAddress p.seeds E.programId).map Prod.fst

def unfunded (ks : List Pubkey) (s : Ledger) : Ledger := fun a =>
  if a ∈ ks then { s a with lamports := 0 } else s a

theorem unfunded_eq {ks : List Pubkey} (h : ∀ k ∈ ks, (s k).lamports = 0) : unfunded ks s = s := by
  funext a
  unfold unfunded
  split
  · rename_i ha
    rw [← h a ha]
  · rfl

theorem mem_createdAt {p : AccountInfo} (h0 : E.accounts[0]? = some p) :
    k ∈ createdAt E tag d ↔ ∃ q ∈ createdPlaces tag p.key d, ∃ b,
      E.host.findProgramAddress q.seeds E.programId = some (k,b) := by
  simp only [createdAt, h0, List.mem_filterMap, Option.map_eq_some_iff, Prod.exists]
  constructor
  · rintro ⟨q,hq,k',b,hb,rfl⟩
    exact ⟨q,hq,b,hb⟩
  · rintro ⟨q,hq,b,hb⟩
    exact ⟨q,hq,k,b,hb,rfl⟩

/-- A derived address signs no transaction. -/
theorem payer_apart {seeds : List Bytes} {b : UInt8} (hw : Wellformed E) (hsign : E.signed payer)
    (hk : E.host.findProgramAddress seeds E.programId = some (k,b)) : k ≠ payer := by
  rintro rfl
  obtain ⟨a,ha,rfl,hs⟩ := hsign
  exact hw.signers a ha hs (E.host.create_isPda _ _ (E.host.find_create _ _ _ _ hk))

theorem found_unique {seeds : List Bytes} {j : Pubkey} {b b' : UInt8}
    (h : E.host.findProgramAddress seeds E.programId = some (j,b))
    (h' : E.host.findProgramAddress seeds E.programId = some (k,b')) : j = k := by
  rw [h] at h'
  cases h'
  rfl

theorem IsEscrowLeg.founding {maker swap tokenProg : Pubkey} {bump : UInt8} {i : ℕ}
    (hp : IsTokenProgram tokenProg) (h : IsEscrowLeg E maker swap tokenProg d bump i as) :
    ∀ a ∈ as, Founding maker a := by
  obtain ⟨vault,source,vbump,dec,-,-,-,rfl⟩ := h
  intro a ha
  simp only [List.mem_cons, List.not_mem_nil, or_false] at ha
  rcases ha with rfl | rfl | rfl | rfl
  · exact .create _ _ _ _ _ (by decide)
  · exact .init _ _ _ _ hp
  · exact .transfer _ _ _ _ _ _ _ _ hp
  · exact .write _ _

/-- The vault of a leg was empty of lamports when the basket was opened. -/
theorem OpenedBasket.vault_empty {maker swap tokenProg : Pubkey} {bump b : UInt8}
    {w g : ℕ → List Act} {i : ℕ} (hs : SystemRules E.host) (ht : TokenRules E.host)
    (hw : Wellformed E) (hp : IsTokenProgram tokenProg)
    (h : OpenedBasket E d m m' maker swap tokenProg bump w g) (hi : i < giveCount d)
    (hb : E.host.findProgramAddress (bvaultSeeds maker (slice d 0 32) (UInt8.ofNat i)) E.programId =
      some (k,b)) :
    (m.ledger k).lamports = 0 := by
  have hk : k ≠ maker := payer_apart hw h.signed hb
  obtain ⟨vault,source,vbump,dec,-,-,haddr,hg⟩ := h.legs i hi
  rw [hb] at haddr
  cases haddr
  -- the legs before the i-th, then its creation
  obtain ⟨n,hn⟩ : ∃ n, giveCount d = i+(n+1) := ⟨giveCount d-i-1,by omega⟩
  have hd := h.did
  rw [hn, List.range_add, List.flatMap_append, List.range_succ_eq_map, List.map_cons,
    List.flatMap_cons, Nat.add_zero, hg, ← List.append_assoc, List.cons_append] at hd
  refine founded_empty _ hs ht hw.notSystem hk ?_ hd
  intro a ha
  simp only [List.mem_append, List.mem_flatMap, List.mem_range, List.mem_cons, List.not_mem_nil,
    or_false] at ha
  rcases ha with (rfl | rfl | ⟨j,hj,ha⟩) | ⟨j,hj,ha⟩
  · exact .create _ _ _ _ _ hw.notSystem
  · exact .write _ _
  · obtain ⟨b,hwj⟩ := h.wants j hj
    rw [hwj, List.mem_singleton] at ha
    subst ha
    exact .write _ _
  · exact (h.legs j (by omega)).founding hp a ha

/-- An instruction that opened a record met no lamports where it created accounts. -/
theorem opened_empty (hs : SystemRules E.host) (ht : TokenRules E.host) (hw : Wellformed E)
    (hf : Confined E.host) (hsup : Supplied tag E.accounts) (htag : tag ∈ openTags)
    (hh : handler E tag d m = .ok () m') (k : Pubkey) (hk : k ∈ createdAt E tag d) :
    (m.ledger k).lamports = 0 := by
  have hlook : ∀ payer, SlotIs E 0 payer → ∃ q ∈ createdPlaces tag payer d, ∃ b,
      E.host.findProgramAddress q.seeds E.programId = some (k,b) := by
    intro payer h0
    obtain ⟨a,ha,rfl⟩ := h0.getElem
    exact (mem_createdAt ha).mp hk
  have hone : ∀ {payer acct owner : Pubkey} {space : ℕ} {seeds seeds' : List Bytes} {b b' : UInt8}
      {post : List Act}, E.signed payer →
      E.host.findProgramAddress seeds E.programId = some (acct,b) →
      E.host.findProgramAddress seeds E.programId = some (k,b') →
      Did E (createAct E payer acct space owner seeds' :: post) m m' →
        (m.ledger k).lamports = 0 := by
    intro payer acct owner space seeds seeds' b b' post hsign hacct hk hd
    have hne : k ≠ payer := payer_apart hw hsign hk
    rw [hacct] at hk
    cases hk
    exact founded_empty [] hs ht hw.notSystem hne (by simp) hd
  have hsingle : ∀ {payer acct owner : Pubkey} {space : ℕ} {p : Place} {seeds' : List Bytes}
    {b : UInt8}
      {post : List Act}, SlotIs E 0 payer → createdPlaces tag payer d = [p] → E.signed payer →
      E.host.findProgramAddress p.seeds E.programId = some (acct,b) →
      Did E (createAct E payer acct space owner seeds' :: post) m m' →
        (m.ledger k).lamports = 0 := by
    intro payer acct owner space p seeds' b post h0 hp hsign hacct hd
    obtain ⟨q,hq,b',hb⟩ := hlook _ h0
    rw [hp, List.mem_singleton] at hq
    subst hq
    exact hone hsign hacct hb hd
  cases wp_ok (handler_outcome hs hw hf) hh with
  | openedSwap keys bump vbump dec h =>
    obtain ⟨q,hq,b,hb⟩ := hlook _ h.slot.first
    simp only [createdPlaces, List.mem_cons, List.not_mem_nil, or_false] at hq
    rcases hq with rfl | rfl
    · exact hone h.slot.signed h.slot.address hb h.did
    · have hne : k ≠ keys.maker := payer_apart hw h.slot.signed hb
      obtain rfl := found_unique h.vault hb
      refine founded_empty [_,_] hs ht hw.notSystem hne ?_ h.did
      intro a ha
      simp only [List.mem_cons, List.not_mem_nil, or_false] at ha
      rcases ha with rfl | rfl
      · exact .create _ _ _ _ _ hw.notSystem
      · exact .log _
  | madeOffer keys bump vbump dec h =>
    have hfirst : SlotIs E 0 keys.offerer := by
      rw [SlotIs, ← List.getElem?_map, ← List.getElem?_take_of_lt (show 0 < 7 by decide), h.slots]
      rfl
    obtain ⟨q,hq,b,hb⟩ := hlook _ hfirst
    simp only [createdPlaces, List.mem_cons, List.not_mem_nil, or_false] at hq
    rcases hq with rfl | rfl
    · exact hone h.signed h.address hb h.did
    · have hne : k ≠ keys.offerer := payer_apart hw h.signed hb
      obtain rfl := found_unique h.vault hb
      refine founded_empty [_] hs ht hw.notSystem hne ?_ h.did
      intro a ha
      rw [List.mem_singleton] at ha
      subst ha
      exact .create _ _ _ _ _ hw.notSystem
  | openedBasket _ _ _ _ _ _ _ =>
    obtain ⟨maker,swap,tokenProg,bump,w,g,h,hfirst,-⟩ := wp_ok (openBasket_opens hs hw hf) hh
    obtain ⟨q,hq,b,hb⟩ := hlook _ hfirst
    simp only [createdPlaces, List.mem_cons, List.mem_map, List.mem_range] at hq
    rcases hq with rfl | ⟨i,hi,rfl⟩
    · exact hone h.signed h.address hb h.did
    · obtain ⟨a,ha,hka⟩ := h.tokenSlot.getElem
      have hp : IsTokenProgram tokenProg := hka ▸ hsup 3 (by simp [tokenSlots]) a ha
      exact h.vault_empty hs ht hw hp hi hb
  | openedPnft _ _ _ h => exact hsingle h.slot.first rfl h.slot.signed h.slot.address h.did
  | openedCore _ _ _ h => exact hsingle h.slot.first rfl h.slot.signed h.slot.address h.did
  | listedToken _ _ _ _ _ _ h => exact hsingle h.slot.first rfl h.slot.signed h.slot.address h.did
  | listedPnft _ _ _ _ _ _ h => exact hsingle h.slot.first rfl h.slot.signed h.slot.address h.did
  | listedCore _ _ _ _ _ _ h => exact hsingle h.slot.first rfl h.slot.signed h.slot.address h.did
  | cancelledListing _ ht _ _ _ _ => exact (tags_apart ht htag rfl).elim
  | expiredListing _ ht _ _ _ => exact (tags_apart ht htag rfl).elim
  | sold _ ht _ => exact (tags_apart ht htag rfl).elim
  | bought _ ht _ => exact (tags_apart ht htag rfl).elim
  | _ => exact absurd htag (by decide)

/-! ## Settling -/

structure Permitted (E : Env) (taker maker ixSysvar : AccountInfo) (t : OrderTerms)
    (message : Bytes) :
    Prop where
  signer : taker.isSigner = true
  live : E.clock < t.expiry
  addressed : t.taker = zeros 32 ∨ t.taker = taker.key.bytes
  signed : SignedBefore E ixSysvar.key maker.key message

structure Marks (E : Env) (s : Ledger) (maker taker orderAuth orderDone : AccountInfo)
    (nonce : Bytes) (authBump doneBump : UInt8) : Prop where
  auth : E.host.findProgramAddress (orderSeeds maker.key) E.programId =
    some (orderAuth.key,authBump)
  done : E.host.findProgramAddress (orderDoneSeeds maker.key nonce) E.programId =
    some (orderDone.key,doneBump)
  permits : E.permits (.createAccount taker.key orderDone.key (E.host.minimumBalance 1) 1
    E.programId) (some (bumped (orderDoneSeeds maker.key nonce) doneBump))
  wallet : Vacant s taker.key
  funds : E.host.minimumBalance 1 ≤ (s taker.key).lamports

def marked (E : Env) (s : Ledger) (maker taker orderDone : AccountInfo) (nonce : Bytes)
    (doneBump : UInt8) : Machine :=
  Machine.next ⟨s,[]⟩ (createAct E taker.key orderDone.key 1 E.programId
      (bumped (orderDoneSeeds maker.key nonce) doneBump))
    (withAccount s taker.key orderDone.key (E.host.minimumBalance 1) 1 E.programId)

structure TradedMint (s : Ledger) (tokenProg mint : Pubkey) (dec : UInt8) : Prop where
  known : IsTokenProgram tokenProg
  owner : (s mint).owner = tokenProg
  decimals : (s mint).data[44]? = some dec

def Succeeds (x : Exec Unit) (m : Machine) : Prop := wp x (fun _ _ => True) (fun _ => False) m

structure BidGates (d : Bytes) : Prop where
  length : d.length = 90
  amounts : (orderTerms d).giveAmount ≠ 0 ∧ (orderTerms d).wantAmount = 1
  stance : (orderTerms d).royaltyMode = royaltyNone ∧ (orderTerms d).makerPct = 0

inductive Settleable (E : Env) (d : Bytes) (s : Ledger) : UInt8 → AccountInfo → Prop
  | token (taker maker giveMint wantMint makerGive takerGive takerWant makerWant orderAuth orderDone
      tokenProg config feeAta system ixSysvar : AccountInfo)
      (authBump doneBump giveDec wantDec : UInt8)
      (accounts : E.accounts.take 15 = [taker,maker,giveMint,wantMint,makerGive,takerGive,takerWant,
        makerWant,orderAuth,orderDone,tokenProg,config,feeAta,system,ixSysvar])
      (length : d.length = 90)
      (stance : (orderTerms d).royaltyMode ≤ royaltySplit ∧ (orderTerms d).makerPct ≤ 100)
      (metadata : (orderTerms d).royaltyMode ≠ royaltyNone → 17 ≤ E.accounts.length)
      (amounts : (orderTerms d).giveAmount ≠ 0 ∧ (orderTerms d).wantAmount ≠ 0)
      (permitted : Permitted E taker maker ixSysvar (orderTerms d)
        (orderMessage orderDomain giveMint.key wantMint.key (orderTerms d)))
      (marks : Marks E s maker taker orderAuth orderDone (orderTerms d).nonce authBump doneBump)
      (source : BelongsTo s makerGive.key giveMint.key maker.key)
      (proceeds : BelongsTo s makerWant.key wantMint.key maker.key)
      (give : TradedMint s (E.accounts[15]?.getD tokenProg).key giveMint.key giveDec)
      (want : TradedMint s tokenProg.key wantMint.key wantDec)
      (legs : Succeeds (do
        payWantAndRoyalty E config tokenProg takerWant wantMint feeAta makerWant taker
          (orderTerms d).wantAmount u64Max wantDec (byteAt (orderTerms d).nonce 0)
          (orderTerms d).royaltyMode (orderTerms d).makerPct giveMint
          (if (orderTerms d).royaltyMode = royaltyNone then none else E.accounts[16]?)
          (E.accounts.drop 17)
        tokenTransfer E (E.accounts[15]?.getD tokenProg) makerGive giveMint takerGive orderAuth
          (orderTerms d).giveAmount giveDec (some (bumped (orderSeeds maker.key) authBump)))
        (marked E s maker taker orderDone (orderTerms d).nonce doneBump)) :
      Settleable E d s 38 maker
  | pnft (taker maker giveMint wantMint takerWant makerWant wantTokenProg config feeAta orderAuth
      orderDone makerAta takerAta metadata edition ownerRecord destRecord tokenMetadata splTok
      ataProg ixSysvar system rulesProg rules : AccountInfo) (authBump doneBump wantDec : UInt8)
      (accounts : E.accounts.take 24 = [taker,maker,giveMint,wantMint,takerWant,makerWant,
        wantTokenProg,config,feeAta,orderAuth,orderDone,makerAta,takerAta,metadata,edition,
        ownerRecord,destRecord,tokenMetadata,splTok,ataProg,ixSysvar,system,rulesProg,rules])
      (length : d.length = 90)
      (stance : (orderTerms d).royaltyMode ≤ royaltySplit ∧ (orderTerms d).makerPct ≤ 100)
      (amounts : (orderTerms d).giveAmount = 1 ∧ (orderTerms d).wantAmount ≠ 0)
      (known : tokenMetadata.key = tokenMetadataId)
      (permitted : Permitted E taker maker ixSysvar (orderTerms d)
        (orderMessage orderDomain giveMint.key wantMint.key (orderTerms d)))
      (marks : Marks E s maker taker orderAuth orderDone (orderTerms d).nonce authBump doneBump)
      (source : IsAta E makerAta.key maker.key giveMint.key)
      (dest : IsAta E takerAta.key taker.key giveMint.key)
      (proceeds : BelongsTo s makerWant.key wantMint.key maker.key)
      (want : TradedMint s wantTokenProg.key wantMint.key wantDec)
      (legs : Succeeds (do
        payWantAndRoyalty E config wantTokenProg takerWant wantMint feeAta makerWant taker
          (orderTerms d).wantAmount u64Max wantDec (byteAt (orderTerms d).nonce 0)
          (orderTerms d).royaltyMode (orderTerms d).makerPct giveMint (some metadata)
          (E.accounts.drop 24)
        mplTransfer E tokenMetadata makerAta maker takerAta taker giveMint metadata edition
          ownerRecord destRecord orderAuth taker system ixSysvar splTok ataProg rulesProg rules 1
          (some (bumped (orderSeeds maker.key) authBump)))
        (marked E s maker taker orderDone (orderTerms d).nonce doneBump)) :
      Settleable E d s 39 maker
  | core (taker maker asset wantMint takerWant makerWant wantTokenProg config feeAta orderAuth
      orderDone system ixSysvar mplCore collection : AccountInfo)
      (authBump doneBump wantDec : UInt8)
      (collOpt : Option AccountInfo)
      (accounts : splitCollection 14 E.accounts = ([taker,maker,asset,wantMint,takerWant,makerWant,
        wantTokenProg,config,feeAta,orderAuth,orderDone,system,ixSysvar,mplCore],collOpt))
      (resolves : Resolves s mplCore collOpt collection)
      (length : d.length = 90)
      (stance : (orderTerms d).royaltyMode = royaltyNone)
      (amounts : (orderTerms d).giveAmount = 1 ∧ (orderTerms d).wantAmount ≠ 0)
      (known : mplCore.key = mplCoreId)
      (permitted : Permitted E taker maker ixSysvar (orderTerms d)
        (orderMessage orderDomain asset.key wantMint.key (orderTerms d)))
      (marks : Marks E s maker taker orderAuth orderDone (orderTerms d).nonce authBump doneBump)
      (proceeds : BelongsTo s makerWant.key wantMint.key maker.key)
      (want : TradedMint s wantTokenProg.key wantMint.key wantDec)
      (legs : Succeeds (do
        payWantLeg E config wantTokenProg takerWant wantMint feeAta makerWant taker
          (orderTerms d).wantAmount wantDec (byteAt (orderTerms d).nonce 0)
        mplCoreTransfer E mplCore asset collection taker orderAuth taker true
          (some (bumped (orderSeeds maker.key) authBump)))
        (marked E s maker taker orderDone (orderTerms d).nonce doneBump)) :
      Settleable E d s 40 maker
  | bidToken (taker maker coinsMint nftMint makerCoins ownerCoins coinsTokenProg config feeAta
      orderAuth orderDone system ixSysvar ownerNft makerNft nftTokenProg : AccountInfo)
      (authBump doneBump coinsDec nftDec : UInt8)
      (accounts : E.accounts = [taker,maker,coinsMint,nftMint,makerCoins,ownerCoins,coinsTokenProg,
        config,feeAta,orderAuth,orderDone,system,ixSysvar,ownerNft,makerNft,nftTokenProg])
      (bid : BidGates d)
      (permitted : Permitted E taker maker ixSysvar (orderTerms d)
        (orderMessage bidDomain coinsMint.key nftMint.key (orderTerms d)))
      (marks : Marks E s maker taker orderAuth orderDone (orderTerms d).nonce authBump doneBump)
      (coins : BelongsTo s makerCoins.key coinsMint.key maker.key)
      (proceeds : BelongsTo s ownerCoins.key coinsMint.key taker.key)
      (source : BelongsTo s ownerNft.key nftMint.key taker.key)
      (dest : BelongsTo s makerNft.key nftMint.key maker.key)
      (want : TradedMint s coinsTokenProg.key coinsMint.key coinsDec)
      (give : TradedMint s nftTokenProg.key nftMint.key nftDec)
      (legs : Succeeds (do
        payCoinsViaDelegate E config coinsTokenProg makerCoins coinsMint feeAta ownerCoins orderAuth
          (bumped (orderSeeds maker.key) authBump) (orderTerms d).giveAmount coinsDec
          (byteAt (orderTerms d).nonce 0)
        tokenTransfer E nftTokenProg ownerNft nftMint makerNft taker 1 0 none)
        (marked E s maker taker orderDone (orderTerms d).nonce doneBump)) :
      Settleable E d s 41 maker
  | bidPnft (taker maker coinsMint nftMint makerCoins ownerCoins coinsTokenProg config feeAta
      orderAuth orderDone system ixSysvar ownerNft makerNft metadata edition ownerRecord destRecord
      tokenMetadata splTok ataProg rulesProg rules : AccountInfo)
      (authBump doneBump coinsDec : UInt8)
      (accounts : E.accounts = [taker,maker,coinsMint,nftMint,makerCoins,ownerCoins,coinsTokenProg,
        config,feeAta,orderAuth,orderDone,system,ixSysvar,ownerNft,makerNft,metadata,edition,
        ownerRecord,destRecord,tokenMetadata,splTok,ataProg,rulesProg,rules])
      (bid : BidGates d)
      (known : tokenMetadata.key = tokenMetadataId)
      (permitted : Permitted E taker maker ixSysvar (orderTerms d)
        (orderMessage bidDomain coinsMint.key nftMint.key (orderTerms d)))
      (marks : Marks E s maker taker orderAuth orderDone (orderTerms d).nonce authBump doneBump)
      (coins : BelongsTo s makerCoins.key coinsMint.key maker.key)
      (proceeds : BelongsTo s ownerCoins.key coinsMint.key taker.key)
      (want : TradedMint s coinsTokenProg.key coinsMint.key coinsDec)
      (legs : Succeeds (do
        payCoinsViaDelegate E config coinsTokenProg makerCoins coinsMint feeAta ownerCoins orderAuth
          (bumped (orderSeeds maker.key) authBump) (orderTerms d).giveAmount coinsDec
          (byteAt (orderTerms d).nonce 0)
        mplTransfer E tokenMetadata ownerNft taker makerNft maker nftMint metadata edition
          ownerRecord destRecord taker taker system ixSysvar splTok ataProg rulesProg rules 1 none)
        (marked E s maker taker orderDone (orderTerms d).nonce doneBump)) :
      Settleable E d s 42 maker
  | bidCore (taker maker coinsMint asset makerCoins ownerCoins coinsTokenProg config feeAta
      orderAuth orderDone system ixSysvar mplCore collection : AccountInfo)
      (authBump doneBump coinsDec : UInt8)
      (collOpt : Option AccountInfo)
      (accounts : splitCollection 14 E.accounts =
        ([taker,maker,coinsMint,asset,makerCoins,ownerCoins,coinsTokenProg,config,feeAta,orderAuth,
        orderDone,system,ixSysvar,mplCore],collOpt))
      (resolves : Resolves s mplCore collOpt collection)
      (bid : BidGates d)
      (known : mplCore.key = mplCoreId)
      (permitted : Permitted E taker maker ixSysvar (orderTerms d)
        (orderMessage bidDomain coinsMint.key asset.key (orderTerms d)))
      (marks : Marks E s maker taker orderAuth orderDone (orderTerms d).nonce authBump doneBump)
      (coins : BelongsTo s makerCoins.key coinsMint.key maker.key)
      (proceeds : BelongsTo s ownerCoins.key coinsMint.key taker.key)
      (want : TradedMint s coinsTokenProg.key coinsMint.key coinsDec)
      (legs : Succeeds (do
        payCoinsViaDelegate E config coinsTokenProg makerCoins coinsMint feeAta ownerCoins orderAuth
          (bumped (orderSeeds maker.key) authBump) (orderTerms d).giveAmount coinsDec
          (byteAt (orderTerms d).nonce 0)
        mplCoreTransfer E mplCore asset collection taker taker maker true none)
        (marked E s maker taker orderDone (orderTerms d).nonce doneBump)) :
      Settleable E d s 43 maker

section
variable {maker taker orderAuth orderDone : AccountInfo} {nonce : Bytes} {authBump doneBump : UInt8}

theorem marked_kept {a : Pubkey} (hv : Vacant s orderDone.key) (ha : (s a).data ≠ []) :
    ((marked E s maker taker orderDone nonce doneBump).ledger a).data = (s a).data ∧
      ((marked E s maker taker orderDone nonce doneBump).ledger a).owner = (s a).owner := by
  have hne : a ≠ orderDone.key := by
    rintro rfl
    exact ha hv.2
  by_cases hp : a = taker.key
  · subst hp
    simp [marked, withAccount, hne]
  · simp [marked, withAccount, hne, hp]

theorem markOrderDone_total (ha : SystemAccepts E.host)
    (h : Marks E s maker taker orderAuth orderDone nonce authBump doneBump)
    (hv : Vacant s orderDone.key) (hz : (s orderDone.key).lamports = 0)
    (hne : taker.key ≠ orderDone.key) {Q : UInt8 → Machine → Prop}
    (hQ : Q authBump (marked E s maker taker orderDone nonce doneBump)) :
    wp (markOrderDone E maker taker orderAuth orderDone nonce) Q (fun _ => False) ⟨s,[]⟩ := by
  have he : (createAct E taker.key orderDone.key 1 E.programId
      (bumped (orderDoneSeeds maker.key nonce) doneBump)).effect E s =
      some (withAccount s taker.key orderDone.key (E.host.minimumBalance 1) 1 E.programId) := by
    rw [createAct, Act.effect, if_pos h.permits]
    exact ha.create _ _ _ _ _ _ hv hz hne h.wallet h.funds
  simp only [markOrderDone, createPda, wp_bind, wp_findAddress, wp_failIf, wp_perform, wp_pure,
    h.auth, h.done, Option.some.injEq, Prod.mk.injEq, reduceCtorEq, false_implies, and_true]
  rintro _ _ ⟨rfl,rfl⟩
  refine ⟨fun _ => ?_,fun hne => hne rfl⟩
  rintro _ _ ⟨rfl,rfl⟩
  refine ⟨fun _ => ⟨fun s₁ hs₁ => ?_,fun hnone => ?_⟩,fun hne => hne rfl⟩
  · rw [createAct] at he
    rw [he] at hs₁
    cases hs₁
    exact hQ
  · rw [createAct] at he
    rw [he] at hnone
    cases hnone

/-- What was a token account before the marker still is. -/
theorem BelongsTo.after_marker {a mint owner : Pubkey} (hv : Vacant s orderDone.key)
    (h : BelongsTo s a mint owner) :
    BelongsTo (marked E s maker taker orderDone nonce doneBump).ledger a mint owner := by
  have ha : (s a).data ≠ [] := by
    intro hd
    have hl := h.1
    rw [hd] at hl
    simp at hl
  rw [BelongsTo, (marked_kept hv ha).1]
  exact h

theorem TradedMint.after_marker {tokenProg mint : Pubkey} {dec : UInt8}
    (hv : Vacant s orderDone.key) (h : TradedMint s tokenProg mint dec) :
    TradedMint (marked E s maker taker orderDone nonce doneBump).ledger tokenProg mint dec := by
  have ha : (s mint).data ≠ [] := by
    intro hd
    have hl := h.decimals
    rw [hd] at hl
    cases hl
  have hk : ((marked E s maker taker orderDone nonce doneBump).ledger mint).data = (s mint).data ∧
      ((marked E s maker taker orderDone nonce doneBump).ledger mint).owner = (s mint).owner :=
    marked_kept hv ha
  exact ⟨h.known,hk.2.trans h.owner,hk.1 ▸ h.decimals⟩

end

theorem taker_ne_marker {taker maker orderDone ixSysvar : AccountInfo} {nonce message : Bytes}
    {b : UInt8} (hw : Wellformed E) (h : Permitted E taker maker ixSysvar (orderTerms d) message)
    (hmem : E.accounts[0]? = some taker)
    (hdone : E.host.findProgramAddress (orderDoneSeeds maker.key nonce) E.programId =
      some (orderDone.key,b)) :
    taker.key ≠ orderDone.key :=
  (payer_apart hw ⟨taker,List.mem_of_getElem? hmem,rfl,h.signer⟩ hdone).symm

theorem verifyBidCommon_total {maker taker orderAuth orderDone ixSysvar coins want : AccountInfo}
    {authBump doneBump : UInt8} (ha : SystemAccepts E.host) (bid : BidGates d)
    (permitted : Permitted E taker maker ixSysvar (orderTerms d)
      (orderMessage bidDomain coins.key want.key (orderTerms d)))
    (h : Marks E s maker taker orderAuth orderDone (orderTerms d).nonce authBump doneBump)
    (hv : Vacant s orderDone.key) (hz : (s orderDone.key).lamports = 0)
    (hne : taker.key ≠ orderDone.key) {Q : UInt8 → Machine → Prop}
    (hQ : Q authBump (marked E s maker taker orderDone (orderTerms d).nonce doneBump)) :
    wp (verifyBidCommon E ixSysvar maker taker orderAuth orderDone coins.key want.key
      (orderTerms d)) Q
      (fun _ => False) ⟨s,[]⟩ := by
  simp [verifyBidCommon, bid.amounts, bid.stance, permitted.signer, permitted.live,
    permitted.signed]
  exact ⟨fun _ => markOrderDone_total ha h hv hz hne hQ,or_iff_not_imp_left.mp permitted.addressed⟩

theorem Resolves.unique {core a b : AccountInfo} {collOpt : Option AccountInfo}
    (h : Resolves s core collOpt a) (h' : Resolves s core collOpt b) : a = b := by
  cases collOpt with
  | none => exact h.trans h'.symm
  | some c =>
    simp only [Resolves] at h h'
    split at h
    · rename_i hc
      rw [if_pos hc] at h'
      exact h.trans h'.symm
    · rename_i hc
      rw [if_neg hc] at h'
      exact h.2.trans h'.2.symm

/-- A call with nothing in the way of its marker succeeds. -/
theorem Settleable.total {maker : AccountInfo} (ha : SystemAccepts E.host) (hw : Wellformed E)
    (hfree : ∀ k b, E.host.findProgramAddress (orderDoneSeeds maker.key (orderTerms d).nonce)
      E.programId = some (k,b) → Vacant s k ∧ (s k).lamports = 0)
    (h : Settleable E d s tag maker) : Succeeds (handler E tag d) ⟨s,[]⟩ := by
  cases h with
  | token taker maker giveMint wantMint makerGive takerGive takerWant makerWant orderAuth orderDone
      tokenProg config feeAta system ixSysvar authBump doneBump giveDec wantDec accounts
      length stance metadata amounts permitted marks source proceeds give want legs =>
    obtain ⟨hv,hz⟩ := hfree _ _ marks.done
    have hlen : 15 ≤ E.accounts.length := by simpa using congrArg List.length accounts
    have hne := taker_ne_marker hw permitted (by
      rw [take_getElem? 15 0 _ _ accounts (by decide)]; rfl) marks.done
    show Succeeds (settleSignedOrder E d) ⟨s,[]⟩
    simp [Succeeds, settleSignedOrder, length, accounts, stance, hlen, amounts, permitted.signer,
      permitted.live, permitted.signed]
    refine ⟨fun _ => markOrderDone_total ha marks hv hz hne ?_,
      or_iff_not_imp_left.mp permitted.addressed⟩
    have hgive : TradedMint (marked E s maker taker orderDone (orderTerms d).nonce doneBump).ledger
      _ _ _ :=
      give.after_marker hv
    have hwant : TradedMint (marked E s maker taker orderDone (orderTerms d).nonce doneBump).ledger
      _ _ _ :=
      want.after_marker hv
    simp [source.after_marker hv, proceeds.after_marker hv, hgive.decimals, hwant.decimals,
      hgive.known, hwant.known, hgive.owner, hwant.owner]
    exact ⟨fun _ => (wp_bind _ _).mp legs,metadata⟩
  | pnft taker maker giveMint wantMint takerWant makerWant wantTokenProg config feeAta orderAuth
    orderDone
      makerAta takerAta mdAcct edition ownerRecord destRecord tokenMetadata splTok ataProg ixSysvar
      system rulesProg rules authBump doneBump wantDec accounts length stance amounts known
      permitted marks source dest proceeds want legs =>
    obtain ⟨hv,hz⟩ := hfree _ _ marks.done
    have hlen : 24 ≤ E.accounts.length := by simpa using congrArg List.length accounts
    have hne := taker_ne_marker hw permitted (by
      rw [take_getElem? 24 0 _ _ accounts (by decide)]; rfl) marks.done
    have hwant : TradedMint (marked E s maker taker orderDone (orderTerms d).nonce doneBump).ledger
      _ _ _ :=
      want.after_marker hv
    obtain ⟨b,hb⟩ := source
    obtain ⟨b',hb'⟩ := dest
    show Succeeds (settleSignedOrderPnft E d) ⟨s,[]⟩
    have hsys : ixSysvar.key = sysvarInstructionsId := permitted.signed.1
    have hsigned := permitted.signed
    rw [hsys] at hsigned
    simp [Succeeds, settleSignedOrderPnft, length, accounts, stance, hlen, amounts, known, hsys,
      permitted.signer, permitted.live, hsigned]
    refine ⟨fun _ => markOrderDone_total ha marks hv hz hne ?_,
      or_iff_not_imp_left.mp permitted.addressed⟩
    simp [hb, hb', proceeds.after_marker hv, hwant.decimals, hwant.known, hwant.owner]
    exact (wp_bind _ _).mp legs
  | core taker maker asset wantMint takerWant makerWant wantTokenProg config feeAta orderAuth
    orderDone
      system ixSysvar mplCore collection authBump doneBump wantDec collOpt accounts resolves
      length stance amounts known permitted marks proceeds want legs =>
    obtain ⟨hv,hz⟩ := hfree _ _ marks.done
    have hne := taker_ne_marker hw permitted (by
      rw [← splitCollection_getElem? 14 0 _ (by decide), accounts]; rfl) marks.done
    have hwant : TradedMint (marked E s maker taker orderDone (orderTerms d).nonce doneBump).ledger
      _ _ _ :=
      want.after_marker hv
    show Succeeds (settleSignedOrderCore E d) ⟨s,[]⟩
    simp [Succeeds, settleSignedOrderCore, length, accounts, stance, amounts, known,
      permitted.signer, permitted.live, permitted.signed]
    refine ⟨fun c hc => ⟨fun _ => ?_,or_iff_not_imp_left.mp permitted.addressed⟩,_,resolves⟩
    obtain rfl := hc.unique resolves
    apply markOrderDone_total ha marks hv hz hne
    simp [proceeds.after_marker hv, hwant.decimals, hwant.known, hwant.owner]
    exact (wp_bind _ _).mp legs
  | bidToken taker maker coinsMint nftMint makerCoins ownerCoins coinsTokenProg config feeAta
    orderAuth
      orderDone system ixSysvar ownerNft makerNft nftTokenProg authBump doneBump coinsDec nftDec
      accounts bid permitted marks coins proceeds source dest want give legs =>
    obtain ⟨hv,hz⟩ := hfree _ _ marks.done
    have hne := taker_ne_marker hw permitted (by rw [accounts]; rfl) marks.done
    have hwant : TradedMint (marked E s maker taker orderDone (orderTerms d).nonce doneBump).ledger
      _ _ _ :=
      want.after_marker hv
    have hgive : TradedMint (marked E s maker taker orderDone (orderTerms d).nonce doneBump).ledger
      _ _ _ :=
      give.after_marker hv
    show Succeeds (settleSignedBidSpl E d) ⟨s,[]⟩
    simp [Succeeds, settleSignedBidSpl, bid.length, accounts]
    apply verifyBidCommon_total ha bid permitted marks hv hz hne
    simp [coins.after_marker hv, proceeds.after_marker hv, source.after_marker hv,
      dest.after_marker hv, hwant.decimals, hwant.known, hwant.owner, hgive.known, hgive.owner]
    exact (wp_bind _ _).mp legs
  | bidPnft taker maker coinsMint nftMint makerCoins ownerCoins coinsTokenProg config feeAta
    orderAuth
      orderDone system ixSysvar ownerNft makerNft mdAcct edition ownerRecord destRecord
      tokenMetadata
      splTok ataProg rulesProg rules authBump doneBump coinsDec accounts bid known permitted
      marks coins proceeds want legs =>
    obtain ⟨hv,hz⟩ := hfree _ _ marks.done
    have hne := taker_ne_marker hw permitted (by rw [accounts]; rfl) marks.done
    have hwant : TradedMint (marked E s maker taker orderDone (orderTerms d).nonce doneBump).ledger
      _ _ _ :=
      want.after_marker hv
    show Succeeds (settleSignedBidPnft E d) ⟨s,[]⟩
    simp [Succeeds, settleSignedBidPnft, bid.length, accounts, known]
    apply verifyBidCommon_total ha bid permitted marks hv hz hne
    simp [coins.after_marker hv, proceeds.after_marker hv, hwant.decimals, hwant.known, hwant.owner]
    exact (wp_bind _ _).mp legs
  | bidCore taker maker coinsMint asset makerCoins ownerCoins coinsTokenProg config feeAta orderAuth
      orderDone system ixSysvar mplCore collection authBump doneBump coinsDec collOpt accounts
      resolves bid known permitted marks coins proceeds want legs =>
    obtain ⟨hv,hz⟩ := hfree _ _ marks.done
    have hne := taker_ne_marker hw permitted (by
      rw [← splitCollection_getElem? 14 0 _ (by decide), accounts]; rfl) marks.done
    have hwant : TradedMint (marked E s maker taker orderDone (orderTerms d).nonce doneBump).ledger
      _ _ _ :=
      want.after_marker hv
    show Succeeds (settleSignedBidCore E d) ⟨s,[]⟩
    simp [Succeeds, settleSignedBidCore, bid.length, accounts, known]
    refine ⟨fun c hc => ?_,_,resolves⟩
    obtain rfl := hc.unique resolves
    apply verifyBidCommon_total ha bid permitted marks hv hz hne
    simp [coins.after_marker hv, proceeds.after_marker hv, hwant.decimals, hwant.known, hwant.owner]
    exact (wp_bind _ _).mp legs

theorem sealedOrder_terms {accounts : List AccountInfo} {a ix : AccountInfo} {o : SealedOrder}
    (h : sealedOrder tag accounts d = some (a,ix,o)) :
    accounts[1]? = some a ∧ o.terms = orderTerms d := by
  unfold sealedOrder at h
  split at h
  · simp only [Option.bind_eq_bind, Option.bind_eq_some_iff] at h
    obtain ⟨a',ha,give,-,want,-,ix',-,h⟩ := h
    cases h
    exact ⟨ha,rfl⟩
  · cases h

theorem Settleable.shape {maker : AccountInfo} (h : Settleable E d s tag maker) :
    tag ∈ settleTags ∧ d.length = 90 ∧ E.accounts[1]? = some maker := by
  cases h with
  | token _ _ _ _ _ _ _ _ _ _ _ _ _ _ _ _ _ _ _ accounts length =>
    exact ⟨by decide,length,by rw [take_getElem? 15 _ _ _ accounts (by decide)]; rfl⟩
  | pnft _ _ _ _ _ _ _ _ _ _ _ _ _ _ _ _ _ _ _ _ _ _ _ _ _ _ _ accounts length =>
    exact ⟨by decide,length,by rw [take_getElem? 24 _ _ _ accounts (by decide)]; rfl⟩
  | core _ _ _ _ _ _ _ _ _ _ _ _ _ _ _ _ _ _ _ accounts _ length =>
    exact ⟨by decide,length,by rw [← splitCollection_getElem? 14 _ _ (by decide), accounts]; rfl⟩
  | bidToken _ _ _ _ _ _ _ _ _ _ _ _ _ _ _ _ _ _ _ _ accounts bid =>
    exact ⟨by decide,bid.length,by rw [accounts]; rfl⟩
  | bidPnft _ _ _ _ _ _ _ _ _ _ _ _ _ _ _ _ _ _ _ _ _ _ _ _ _ _ _ accounts bid =>
    exact ⟨by decide,bid.length,by rw [accounts]; rfl⟩
  | bidCore _ _ _ _ _ _ _ _ _ _ _ _ _ _ _ _ _ _ _ accounts _ bid =>
    exact ⟨by
      decide,bid.length,by rw [← splitCollection_getElem? 14 _ _ (by decide), accounts]; rfl⟩

/-! ## Runs -/

def Unsettled (maker : Pubkey) (nonce : Bytes) (a : Action) (_ _ : Ledger) : Prop :=
  ∀ c, a = .call c → ¬SettlesFor c maker nonce

theorem Step.marker_vacant {a : Action} {maker : Pubkey} {nonce : Bytes} (hs : SystemRules H)
    (hf : Confined H) (hc : H.CollisionFree) (hk : (Place.orderDone maker nonce).At H k)
    (hstep : Step H a s s') (hu : Unsettled maker nonce a s s') (hv : Vacant s k) :
    Vacant s' k := by
  cases hstep with
  | call c _ m ho hr =>
    obtain ⟨tag,d,hd,hh⟩ := Call.handled hr
    obtain ⟨acts,hacts,hfoot⟩ := Call.within hs hf ho hh
    obtain ⟨rfl,hw⟩ := ho
    refine (ran_frame hw hf _ hacts.ran).vacant k hk.isPda ?_ hv
    intro hin
    obtain ⟨p,hp,hpk⟩ := hfoot.signs k hin
    rw [hpk.inj hc hk] at hp
    have ht : IsSettle tag := hp
    obtain ⟨a,o,payer,auth,marker,authBump,doneBump,as,hset⟩ := wp_ok (handler_settles hs ht) hh
    obtain ⟨ix,ho⟩ := hset.order
    have hlog := did_trace _ _ _ hacts
    rw [did_trace _ _ _ hset.did, List.map_nil, List.nil_append, List.nil_append] at hlog
    rw [← hlog, signsIn_cons] at hin
    have hplace : (Place.orderDone a.key o.terms.nonce).At c.env.host k := by
      rcases hin with hin | hin
      · rw [createAct, signsIn_invoke] at hin
        exact ⟨(sealedOrder_sized ho).nonce,doneBump,hin⟩
      · have hauth : (Place.order a.key).At c.env.host k :=
          ⟨trivial,authBump,hset.moves.signs k hin⟩
        cases hauth.inj hc hk
    have hsame := hplace.inj hc hk
    cases hsame
    exact hu c rfl ⟨tag,d,a,ix,o,hd,ht,ho,rfl,rfl⟩
  | outside _ _ hfr => exact hfr.vacant k hk.isPda id hv
  | reap =>
    by_cases hl : (s k).lamports = 0
    · rw [Vacant, reap_dead hl]
      exact ⟨rfl,rfl⟩
    · rw [Vacant, reap_live (Nat.pos_of_ne_zero hl)]
      exact hv

theorem unsettled_vacant {maker : Pubkey} {nonce : Bytes} (hs : SystemRules H) (hf : Confined H)
    (hc : H.CollisionFree) (hk : (Place.orderDone maker nonce).At H k) (hg : Genesis H s)
    (hrun : Run H (Unsettled maker nonce) s s') : Vacant s' k :=
  hrun.invariant (P := fun s => Vacant s k)
    (fun _ _ _ hstep hu hv => hstep.marker_vacant hs hf hc hk hu hv) (hg _ k (by simp) hk)

theorem Call.result_of_ok {d : Bytes} (hd : c.data = tag :: d)
    (h : handler c.env tag d ⟨s,[]⟩ = .ok () m) :
    c.result s = some m := by
  have hp : process c.env c.data ⟨s,[]⟩ = .ok () m := by
    rw [hd]
    exact h
  rw [Call.result, hp]

/-- An order that was never settled, and that is settleable, settles exactly when
no lamports lie at its marker; and a call that opens a record, and would succeed
if nobody had sent lamports there, succeeds exactly when none lie where it
creates accounts. -/
theorem creation_unless_prefunded (hs : SystemRules H) (ha : SystemAccepts H) (ht : TokenRules H)
    (hf : Confined H) (hc : H.CollisionFree) :
    (∀ s₀ s (c : Call) tag d (maker : AccountInfo) k b, Genesis H s₀ →
      Run H (Unsettled maker.key (orderTerms d).nonce) s₀ s → c.On H → c.data = tag :: d →
      Settleable c.env d s tag maker →
      H.findProgramAddress (orderDoneSeeds maker.key (orderTerms d).nonce) H.programId =
        some (k,b) →
      ((c.result s).isSome ↔ (s k).lamports = 0)) ∧
    ∀ s (c : Call) tag d, c.On H → c.data = tag :: d → tag ∈ openTags →
      Supplied tag c.env.accounts → (c.result (unfunded (createdAt c.env tag d) s)).isSome →
      ((c.result s).isSome ↔ ∀ k ∈ createdAt c.env tag d, (s k).lamports = 0) := by
  constructor
  · intro s₀ s c tag d maker k b hg hrun ho hd hset hk
    obtain ⟨htag,hlen,hmaker⟩ := hset.shape
    obtain ⟨rfl,hw⟩ := ho
    constructor
    · intro hsome
      obtain ⟨m,hm⟩ := Option.isSome_iff_exists.mp hsome
      obtain ⟨tag',d',hd',hh⟩ := Call.handled hm
      rw [hd] at hd'
      cases hd'
      obtain ⟨a,o,payer,auth,marker,authBump,doneBump,as,hdone⟩ :=
        wp_ok (handler_settles hs htag) hh
      obtain ⟨ix,horder⟩ := hdone.order
      obtain ⟨ha',hterms⟩ := sealedOrder_terms horder
      rw [hmaker] at ha'
      cases ha'
      have haddr := hdone.done
      rw [hterms] at haddr
      obtain rfl := found_unique haddr hk
      obtain ⟨s₁,he,-⟩ := hdone.did
      simp only [createAct, Act.effect] at he
      split at he
      · exact (hs.create _ _ _ _ _ _ _ he).2.1
      · cases he
    · intro hz
      have hfree : ∀ k' b',
        c.env.host.findProgramAddress (orderDoneSeeds maker.key (orderTerms d).nonce)
          c.env.programId = some (k',b') → Vacant s k' ∧ (s k').lamports = 0 := by
        intro k' b' hk'
        obtain rfl := found_unique hk hk'
        have hn : (orderTerms d).nonce.length = 32 := slice_length _ _ _ (by omega)
        exact ⟨unsettled_vacant hs hf hc (Place.At.of_find (p := .orderDone _ _) hn hk) hg hrun,hz⟩
      obtain ⟨_,m,hm,-⟩ := wp_total (hset.total ha hw hfree)
      exact Option.isSome_iff_exists.mpr ⟨m,Call.result_of_ok hd hm⟩
  · intro s c tag d ho hd htag hsup hvalid
    constructor
    · intro hsome
      obtain ⟨m,hm⟩ := Option.isSome_iff_exists.mp hsome
      obtain ⟨tag',d',hd',hh⟩ := Call.handled hm
      rw [hd] at hd'
      cases hd'
      obtain ⟨rfl,hw⟩ := ho
      exact opened_empty hs ht hw hf hsup htag hh
    · intro hz
      rwa [unfunded_eq hz] at hvalid

section
open Xete.Market

def succeeds (x : Exec Unit) (m : Machine) : Bool :=
  match x m with
  | .ok _ _ => true
  | .error _ _ => false

theorem succeeds_of {x : Exec Unit} (h : succeeds x m = true) : Succeeds x m := by
  unfold Succeeds wp
  unfold succeeds at h
  cases hx : x m with
  | ok _ _ => trivial
  | error _ _ =>
    rw [hx] at h
    cases h

def party (k : Pubkey) : AccountInfo := ⟨k,false,true⟩

def ReadyToSettle (s : Ledger) : Prop :=
  (Vacant s taker ∧ market.minimumBalance 1 ≤ (s taker).lamports) ∧
    ((64 ≤ (s makerA).data.length ∧ keyAt (s makerA).data 0 = mintA ∧ keyAt (s makerA).data 32 =
      maker) ∧
      64 ≤ (s makerB).data.length ∧ keyAt (s makerB).data 0 = mintB ∧ keyAt (s makerB).data 32 =
        maker) ∧
    ((s mintA).owner = splTokenId ∧ (s mintA).data[44]? = some 0) ∧
    ((s mintB).owner = splTokenId ∧ (s mintB).data[44]? = some 0) ∧
    succeeds (do
      payWantAndRoyalty settleOrderCall.env (party configKey) (party splTokenId) (party takerB)
        (party mintB)
        (party feeB) (party makerB) ⟨taker,true,true⟩ (orderTerms sealedTerms).wantAmount u64Max 0
        (byteAt (orderTerms sealedTerms).nonce 0) (orderTerms sealedTerms).royaltyMode
        (orderTerms sealedTerms).makerPct (party mintA) none []
      tokenTransfer settleOrderCall.env (party splTokenId) (party makerA) (party mintA)
        (party takerA) (party orderKey) (orderTerms sealedTerms).giveAmount 0
        (some (bumped (orderSeeds maker) 255)))
      (marked settleOrderCall.env s (party maker) ⟨taker,true,true⟩ (party orderDoneKey)
        (orderTerms sealedTerms).nonce 255) = true

instance (s : Ledger) : Decidable (ReadyToSettle s) := by unfold ReadyToSettle; infer_instance

theorem ReadyToSettle.settleable {s : Ledger} (h : ReadyToSettle s) :
    Settleable settleOrderCall.env sealedTerms s 38 (party maker) := by
  obtain ⟨⟨hwallet,hfunds⟩,⟨hsource,hproceeds⟩,hgive,hwant,hlegs⟩ := h
  refine .token ⟨taker,true,true⟩ (party maker) (party mintA) (party mintB) (party makerA)
    (party takerA)
    (party takerB) (party makerB) (party orderKey) (party orderDoneKey) (party splTokenId)
    (party configKey) (party feeB) (party systemId) (party sysvarInstructionsId) 255 255 0 0 rfl rfl
    (by decide) (fun h => absurd rfl h) (by decide) ⟨rfl,by decide,.inl (by decide),?_⟩
    ⟨by decide,by decide,by decide,hwallet,hfunds⟩ hsource hproceeds ⟨by decide,hgive.1,hgive.2⟩
    ⟨by decide,hwant.1,hwant.2⟩ (succeeds_of hlegs)
  exact ⟨rfl,by decide,_,rfl,rfl,by decide +kernel⟩

theorem outside_unsettled {s s' : Ledger} : Unsettled maker nonce .outside s s' := by
  intro c hc
  cases hc

/-- Nobody sent lamports to the marker, nor to the swap and its vault. -/
theorem creation_unless_prefunded_market : ∃ s,
    market.process (.approve splTokenId makerA orderKey maker 100) start = some s ∧
    ((settleOrderCall.result s).isSome ↔ (s orderDoneKey).lamports = 0) ∧
    (s orderDoneKey).lamports = 0 ∧
    (((openSwapCall 100 50).result start).isSome ↔
      ∀ k ∈ createdAt (openSwapCall 100 50).env 0 ((openSwapCall 100 50).data.drop 1),
        (start k).lamports = 0) ∧
    createdAt (openSwapCall 100 50).env 0 ((openSwapCall 100 50).data.drop 1) =
      [swapKey,vaultKey] := by
  have h : ((market.process (.approve splTokenId makerA orderKey maker 100) start).any fun s =>
      decide (ReadyToSettle s) && decide ((s orderDoneKey).lamports = 0)) = true := by
    decide +kernel
  have hopen : ((openSwapCall 100 50).result (unfunded [swapKey,vaultKey] start)).isSome =
    true := by
    decide +kernel
  simp only [Option.any_eq_true, Bool.and_eq_true, decide_eq_true_eq] at h
  obtain ⟨s,hs,hready,hz⟩ := h
  have hat : createdAt (openSwapCall 100 50).env 0 ((openSwapCall 100 50).data.drop 1) =
      [swapKey,vaultKey] := by decide +kernel
  obtain ⟨hsettle,hcreate⟩ := creation_unless_prefunded market_systemRules market_systemAccepts
    market_tokenRules market_confined market_collisionFree
  have hrun : Run market (Unsettled maker nonce) start s :=
    .single ⟨.outside,market_outside (by decide) (signer_apart rfl (by decide)) hs,
      outside_unsettled⟩
  refine ⟨s,hs,?_,hz,?_,hat⟩
  · exact hsettle start s settleOrderCall 38 sealedTerms (party maker) orderDoneKey 255
      start_genesis hrun settleOrderCall_on rfl hready.settleable (by decide +kernel)
  · refine hcreate start (openSwapCall 100 50) 0 _ (sees_on _ _ _ _ (by decide)) rfl (by
      decide) ?_ ?_
    · intro i hi a ha
      obtain rfl : i = 6 := List.mem_singleton.mp hi
      cases ha
      decide
    · rw [hat]
      exact hopen

/-- The rent of an empty account sent to the marker of a signed order, that was
never settled and can be settled otherwise, keeps it from being settled. -/
theorem prefunded_order : ∃ s, Genesis market start ∧ Run market (Unsettled maker nonce) start s ∧
    Settleable settleOrderCall.env sealedTerms s 38 (party maker) ∧
    settleOrderCall.result s = none := by
  have h : ((market.process (.approve splTokenId makerA orderKey maker 100) start).any fun s =>
      (market.process (.transferLamports offerer orderDoneKey 890880) s).any fun s' =>
        decide (ReadyToSettle s') && (settleOrderCall.result s').isNone) = true := by
    decide +kernel
  simp only [Option.any_eq_true, Bool.and_eq_true, decide_eq_true_eq, Option.isNone_iff_eq_none]
    at h
  obtain ⟨s,hs,s',hs',hready,hnone⟩ := h
  refine ⟨s',start_genesis,?_,hready.settleable,hnone⟩
  exact .tail (.single ⟨.outside,market_outside (by decide) (signer_apart rfl (by decide)) hs,
    outside_unsettled⟩)
    ⟨.outside,market_outside (by decide) (signer_apart rfl (by decide)) hs',outside_unsettled⟩

end

end Xete.Swap
