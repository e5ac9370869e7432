import XetePrograms.Swap.Market
import XetePrograms.Swap.Reach

/-!
# Sealed orders settle once

The marker of an order is created before anything moves, and no instruction
writes or closes a marker, so it stands through every run and a second
settlement finds its address taken. The order address signs in the settle
instructions only, and there for the signed amount.
-/

set_option autoImplicit false

namespace Xete.Swap
open Xete.Octets Xete.Weakest Xete.Chain Xete.Token Xete.Runtime Xete.Rules

section
variable {H : Host} {E : Env} {tag : UInt8} {m m' : Machine} {s s' : Ledger} {c : Call} {d : Bytes}

def SettlesFor (c : Call) (maker : Pubkey) (nonce : Bytes) : Prop :=
  ∃ tag d a ix o, c.data = tag :: d ∧ tag ∈ settleTags ∧
    sealedOrder tag c.env.accounts d = some (a,ix,o) ∧ a.key = maker ∧ o.terms.nonce = nonce

def Marked (H : Host) (maker : Pubkey) (nonce : Bytes) (s : Ledger) : Prop :=
  ∃ k b, H.findProgramAddress (orderDoneSeeds maker nonce) H.programId = some (k,b) ∧
    (Place.orderDone maker nonce).At H k ∧ Recorded H k (zeros 1) s

theorem Marked.step {a : Action} {maker : Pubkey} {nonce : Bytes} (hs : SystemRules H)
    (hf : Confined H) (hc : H.CollisionFree) (hstep : Step H a s s') (h : Marked H maker nonce s) :
    Marked H maker nonce s' := by
  obtain ⟨k,b,hk,hp,hr⟩ := h
  exact ⟨k,b,hk,hp,hr.step hs hf hc hp hstep fun c tag d _ _ => id⟩

theorem Marked.run {maker : Pubkey} {nonce : Bytes} (hs : SystemRules H) (hf : Confined H)
    (hc : H.CollisionFree) (hrun : Run H AnyStep s s') (h : Marked H maker nonce s) :
    Marked H maker nonce s' :=
  hrun.invariant (fun _ _ _ hstep _ h => h.step hs hf hc hstep) h

/-- A settle call that succeeds settled its order. -/
theorem SettlesFor.settled {maker : Pubkey} {nonce : Bytes} (hs : SystemRules H) (ho : c.On H)
    (h : SettlesFor c maker nonce) (hr : c.result s = some m) :
    ∃ tag d a o payer auth marker authBump doneBump as,
      SettledOrder c.env tag d ⟨s,[]⟩ m a o payer auth marker authBump doneBump as ∧
        a.key = maker ∧ o.terms.nonce = nonce := by
  obtain ⟨tag,d,a,ix,o,hd,ht,hso,ha,hn⟩ := h
  obtain ⟨tag',d',hd',hh⟩ := Call.handled hr
  rw [hd] at hd'
  cases hd'
  obtain ⟨rfl,hw⟩ := ho
  obtain ⟨a',o',payer,auth,marker,authBump,doneBump,as,hset⟩ :=
    wp_ok (handler_settles hs ht) hh
  obtain ⟨ix',hso'⟩ := hset.order
  rw [hso] at hso'
  cases hso'
  exact ⟨tag,d,a,o,payer,auth,marker,authBump,doneBump,as,hset,ha,hn⟩

theorem SettledOrder.marked {maker : AccountInfo} {o : SealedOrder} {payer auth marker : Pubkey}
    {authBump doneBump : UInt8} {as : List Act} (hs : SystemRules E.host) (hw : Wellformed E)
    (hf : Confined E.host)
    (h : SettledOrder E tag d m m' maker o payer auth marker authBump doneBump as) :
    Marked E.host maker.key o.terms.nonce m'.ledger := by
  obtain ⟨ix,ho⟩ := h.order
  exact ⟨marker,doneBump,h.done,.of_find (sealedOrder_sized ho).nonce h.done,
    created_recorded hs hw hf h.did (h.moves.touches marker)⟩

theorem SettledOrder.unmarked {maker : AccountInfo} {o : SealedOrder} {payer auth marker : Pubkey}
    {authBump doneBump : UInt8} {as : List Act} (hs : SystemRules E.host) (hw : Wellformed E)
    (h : SettledOrder E tag d m m' maker o payer auth marker authBump doneBump as) :
    ¬Marked E.host maker.key o.terms.nonce m.ledger := by
  rintro ⟨k,b,hk,-,hr⟩
  obtain ⟨s,hcreate,-⟩ := h.did
  rw [h.done] at hk
  cases hk
  exact hw.notSystem (hr.owner.symm.trans (create_vacant hs hcreate).1)

theorem did_effect {as : List Act} {a : Act} (h : Did E as m m') (ha : a ∈ as) :
    ∃ s s', a.effect E s = some s' := by
  induction as generalizing m with
  | nil => cases ha
  | cons b as ih =>
    obtain ⟨s,hs,h⟩ := h
    rcases List.mem_cons.mp ha with rfl | ha
    · exact ⟨_,s,hs⟩
    · exact ih h ha

/-- An address of the program that signs an invocation of a call does so through
its seeds. -/
theorem signsIn_of_signer {as : List Act} {k : Pubkey} {x : Cpi} {seeds : Option (List Bytes)}
    (hw : Wellformed E) (h : Did E as m m') (ha : .invoke x seeds ∈ as) (hk : k ∈ x.signers)
    (hp : E.host.IsPda k) : SignsIn E as k := by
  obtain ⟨s,s',he⟩ := did_effect h ha
  simp only [Act.effect] at he
  split at he
  · rename_i hperm
    rcases E.permits_signer x seeds hperm k hk with ⟨a,hmem,rfl,hsign⟩ | hseeds
    · exact (hw.signers a hmem hsign hp).elim
    · cases seeds with
      | none => cases hseeds
      | some ss => exact ⟨x,ss,ha,hseeds⟩
  · cases he

/-- The settlement behind a signature of the order address of `maker`: the
maker signed the order, and the acts after its marker move exactly the signed
amount of the signed asset out of the maker's accounts. -/
structure BoundedBy (c : Call) (s : Ledger) (m : Machine) (maker k : Pubkey) (tag : UInt8)
    (d : Bytes) (o : SealedOrder) (as : List Act) : Prop where
  data : c.data = tag :: d
  settles : tag ∈ settleTags
  order : ∃ a ix, a.key = maker ∧ sealedOrder tag c.env.accounts d = some (a,ix,o) ∧
    SignedBefore c.env ix.key maker o.message
  moves : ∃ b, Moves c.env s maker k o.give (bumped (orderSeeds maker) b) as o.terms.giveAmount
  did : ∃ payer marker b, Did c.env (createAct c.env payer marker 1 c.env.programId
    (bumped (orderDoneSeeds maker o.terms.nonce) b) :: as) ⟨s,[]⟩ m

theorem call_bounded (hs : SystemRules H) (hf : Confined H) (hc : H.CollisionFree) (ho : c.On H)
    (hr : c.result s = some m) {maker k : Pubkey} (hk : (Place.order maker).At H k) {x : Cpi}
    {seeds : Option (List Bytes)} (hx : .invoke x seeds ∈ m.trace.map Event.act)
    (hsign : k ∈ x.signers) : ∃ tag d o as, BoundedBy c s m maker k tag d o as := by
  obtain ⟨tag,d,hd,hh⟩ := Call.handled hr
  obtain ⟨acts,hacts,hfoot⟩ := Call.within hs hf ho hh
  obtain ⟨rfl,hw⟩ := ho
  rw [did_trace _ _ _ hacts, List.map_nil, List.nil_append] at hx
  have hin := signsIn_of_signer hw hacts hx hsign hk.isPda
  have hacts' := did_trace _ _ _ hacts
  obtain ⟨p,hp,hpk⟩ := hfoot.signs k hin
  rw [hpk.inj hc hk] at hp
  have ht : IsSettle tag := hp
  obtain ⟨a,o,payer,auth,marker,authBump,doneBump,as,hset⟩ := wp_ok (handler_settles hs ht) hh
  obtain ⟨a',ix,o',ho',hsig⟩ :=
    wp_ok (wp_mono (handler_signed ht) (fun _ _ h => h) fun _ _ => trivial) hh
  obtain ⟨ix',ho⟩ := hset.order
  rw [ho] at ho'
  cases ho'
  rw [did_trace _ _ _ hset.did, List.map_nil, List.nil_append, List.nil_append] at hacts'
  rw [← hacts', signsIn_cons] at hin
  have hmoved : SignsIn c.env as k := by
    apply hin.resolve_left
    intro hmark
    rw [createAct, signsIn_invoke] at hmark
    have hdone : (Place.orderDone a.key o.terms.nonce).At c.env.host k :=
      ⟨(sealedOrder_sized ho).nonce,doneBump,hmark⟩
    cases hk.inj hc hdone
  have hauth := hset.moves.signs k hmoved
  have hsame : (Place.order maker) = .order a.key := hk.inj hc ⟨trivial,authBump,hauth⟩
  cases hsame
  have hkey : k = auth :=
    Option.some_inj.mp (hauth.symm.trans (c.env.host.find_create _ _ _ _ hset.address))
  exact ⟨tag,d,o,as,
    { data := hd
      settles := hp
      order := ⟨a,ix,rfl,ho,(verifyEd25519Order_ok _ _ _ _ _).mp (hsig ⟨s,[]⟩)⟩
      moves := ⟨authBump,hkey ▸ hset.moves⟩
      did := ⟨payer,marker,doneBump,hset.did⟩ }⟩

/-- A sealed order or bid settles once: after a settlement for a maker and a
nonce, in whatever run follows, no other one for them succeeds; and an
invocation that an order address signs belongs to the settlement of an order
that its maker signed and that moves exactly the signed amount. -/
theorem orders_settle_once (hs : SystemRules H) (hf : Confined H) (hc : H.CollisionFree) :
    (∀ c₁ c₂ maker nonce s m s', c₁.On H → c₂.On H → SettlesFor c₁ maker nonce →
      SettlesFor c₂ maker nonce → c₁.result s = some m → Run H AnyStep m.ledger s' →
      c₂.result s' = none) ∧
    ∀ c s m maker k x seeds, c.On H → c.result s = some m → (Place.order maker).At H k →
      .invoke x seeds ∈ m.trace.map Event.act → k ∈ x.signers →
      ∃ tag d o as, BoundedBy c s m maker k tag d o as := by
  refine ⟨?_,fun c s m maker k x seeds ho hr hk hx hsign => call_bounded hs hf hc ho hr hk hx hsign⟩
  intro c₁ c₂ maker nonce s m s' ho₁ ho₂ h₁ h₂ hr hrun
  obtain ⟨tag,d,a,o,payer,auth,marker,authBump,doneBump,as,hset,rfl,rfl⟩ := h₁.settled hs ho₁ hr
  obtain ⟨rfl,hw₁⟩ := ho₁
  have hmarked := (hset.marked hs hw₁ hf).run hs hf hc hrun
  by_contra hne
  obtain ⟨m₂,hr₂⟩ := Option.ne_none_iff_exists'.mp hne
  obtain ⟨tag₂,d₂,a₂,o₂,payer₂,auth₂,marker₂,authBump₂,doneBump₂,as₂,hset₂,ha,hn⟩ :=
    h₂.settled hs ho₂ hr₂
  obtain ⟨hhost,hw₂⟩ := ho₂
  rw [← hhost] at hs hmarked
  rw [← ha, ← hn] at hmarked
  exact hset₂.unmarked hs hw₂ hmarked

end

section
open Xete.Market

theorem settleOrderCall_on : settleOrderCall.On market :=
  ⟨rfl,(sees_wellformed 0 taker _ (by decide)).congr rfl rfl⟩

theorem settleOrderCall_for : SettlesFor settleOrderCall maker nonce :=
  ⟨38,sealedTerms,⟨maker,false,true⟩,⟨sysvarInstructionsId,false,true⟩,
    ⟨false,mintA,mintB,orderTerms sealedTerms⟩,rfl,by decide,rfl,rfl,by decide⟩

/-- The maker approves the order address and the order settles, once. -/
theorem orders_settle_once_sell : ∃ s m,
    market.process (.approve splTokenId makerA orderKey maker 100) start = some s ∧
    settleOrderCall.result s = some m ∧ settleOrderCall.result (reap m.ledger) = none ∧
    ∃ tag d o as, BoundedBy settleOrderCall s m maker orderKey tag d o as := by
  have h : ((market.process (.approve splTokenId makerA orderKey maker 100) start).any fun s =>
      (settleOrderCall.result s).any fun m =>
        transferAct splTokenId makerA mintA takerA orderKey 5 0
        (some (bumped (orderSeeds maker) 255)) ∈ m.trace.map Event.act) = true := by
    decide +kernel
  simp only [Option.any_eq_true, decide_eq_true_eq] at h
  obtain ⟨s,hs,m,hm,hx⟩ := h
  have hkey : (Place.order maker).At market orderKey := ⟨trivial,255,by decide +kernel⟩
  obtain ⟨honce,hbound⟩ := orders_settle_once market_systemRules market_confined
    market_collisionFree
  refine ⟨s,m,hs,hm,?_,hbound _ _ _ _ _ _ _ settleOrderCall_on hm hkey hx ?_⟩
  · exact honce _ _ _ _ s m _ settleOrderCall_on settleOrderCall_on settleOrderCall_for
      settleOrderCall_for hm (.single ⟨.reap,.reap _,trivial⟩)
  · simp [Cpi.signers, Cpi.metas, signing, writing, reading]

end

end Xete.Swap
