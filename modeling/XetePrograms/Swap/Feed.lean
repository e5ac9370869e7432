import XetePrograms.Swap.Market
import XetePrograms.Swap.Origin
import XetePrograms.Swap.Readback

/-!
# The feed of announcements

What a run logs is one event for each swap or listing that it opens, and nothing
else. The last event about a post gives the terms of its record for as long as
the record lives, so whoever follows the feed knows every open post.
-/

set_option autoImplicit false

namespace Xete.Swap
open Xete.Octets Xete.Weakest Xete.Chain Xete.Token Xete.Runtime Xete.Rules

variable {H : Host} {E : Env} {m m' : Machine} {s s' s₀ : Ledger} {a : Action} {c : Call}
  {d : Bytes} {tag : UInt8} {p : Place} {k : Pubkey} {as bs log : List Act}

/-! ## The log -/

def acts (m : Machine) : List Act := m.trace.map Event.act

def Act.logged : Act → Option Bytes
  | .log b => some b
  | _ => none

def logs (as : List Act) : List Bytes := as.filterMap Act.logged

def postsOf (k : Pubkey) (as : List Act) : List Sdk.PostCreated :=
  (logs as).filterMap fun b => (Sdk.postCreatedFrom b).filter fun e => e.post = k

@[simp] theorem logs_append (as bs : List Act) : logs (as ++ bs) = logs as ++ logs bs :=
  List.filterMap_append

@[simp] theorem postsOf_append (k : Pubkey) (as bs : List Act) :
    postsOf k (as ++ bs) = postsOf k as ++ postsOf k bs := by
  rw [postsOf, logs_append, List.filterMap_append]
  rfl

theorem logs_quiet (h : ∀ b, .log b ∉ as) : logs as = [] := by
  rw [logs, List.filterMap_eq_nil_iff]
  intro a ha
  cases a with
  | log b => exact (h b ha).elim
  | _ => rfl

/-! ## What an event says -/

def kindPlace (kind : UInt8) (maker : Pubkey) (nonce : Bytes) : Place :=
  if kind ∈ ([kindSwap,kindSwapPnft,kindSwapCore] : List UInt8) then .swap maker nonce
  else .listing maker nonce

theorem kindPlace_post (ht : tag ∈ postTags) (maker : Pubkey) (nonce : Bytes) :
    kindPlace (postKind tag) maker nonce = postPlace tag maker nonce := by
  simp only [postTags, List.mem_cons, List.not_mem_nil, or_false] at ht
  rcases ht with rfl | rfl | rfl | rfl | rfl | rfl <;> rfl

def SwapView.event (v : SwapView) (kind : UInt8) (k : Pubkey) : Sdk.PostCreated :=
  ⟨discPostCreated,magic,schemaVersion,kind,v.maker,k,v.giveMint,v.wantMint,v.giveAmount,
    v.wantAmount,v.expiry,v.nonce⟩

theorem Place.IsPost.party (h : p.IsPost) : p.party.isSome := by
  cases p with
  | swap => rfl
  | listing => rfl
  | _ => exact h.elim

/-! ## One call -/

/-- The acts of one that opens a post: the account is created, the event logged,
and nothing else is logged. -/
def Posts (E : Env) (record : Pubkey) (as : List Act) : Prop :=
  ∃ payer space seeds b rest, as = createAct E payer record space E.programId seeds :: .log b
    :: rest ∧ logs rest = []

theorem OpenedListing.posts {maker listing giveMint wantMint : Pubkey} {kind bump : UInt8}
    {mid : List Act} {b : Bytes}
    (h : OpenedListing E d m m' maker listing giveMint wantMint kind bump mid b)
    (hm : m.trace = []) : Posts E listing (acts m') := by
  rw [acts, did_trace _ _ _ h.did, hm]
  refine ⟨_,_,_,_,mid ++ [.write listing b],rfl,?_⟩
  rw [logs_append, logs_quiet (unsigned_idle (E := E) h.unsigned).quiet]
  rfl

/-- Each of the six writers writes one record, and announces it. -/
theorem Outcome.posts (h : Outcome E d m m' tag) (hm : m.trace = []) (ht : tag ∈ postTags) :
    ∃ record v, Written E tag d m' record v ∧ Posts E record (acts m') := by
  cases h with
  | openedSwap _ _ _ _ h =>
    obtain ⟨v,hv⟩ := h.written hm
    refine ⟨_,v,hv,?_⟩
    rw [acts, did_trace _ _ _ h.did, hm]
    exact ⟨_,_,_,_,_,rfl,rfl⟩
  | openedPnft _ _ _ h =>
    obtain ⟨v,hv⟩ := h.written hm
    refine ⟨_,v,hv,?_⟩
    rw [acts, did_trace _ _ _ h.did, hm]
    exact ⟨_,_,_,_,_,rfl,rfl⟩
  | openedCore _ _ _ h =>
    obtain ⟨v,hv⟩ := h.written hm
    refine ⟨_,v,hv,?_⟩
    rw [acts, did_trace _ _ _ h.did, hm]
    exact ⟨_,_,_,_,_,rfl,rfl⟩
  | listedToken _ _ _ _ _ _ h =>
    obtain ⟨v,hv⟩ := h.toOpenedListing.written hm (.inl rfl)
    exact ⟨_,v,hv,h.toOpenedListing.posts hm⟩
  | listedPnft _ _ _ _ _ _ h =>
    obtain ⟨v,hv⟩ := h.toOpenedListing.written hm (.inr rfl)
    exact ⟨_,v,hv,h.toOpenedListing.posts hm⟩
  | listedCore _ _ _ _ _ _ h =>
    obtain ⟨v,hv⟩ := h.written hm
    exact ⟨_,v,hv,h.toOpenedListing.posts hm⟩
  | cancelledListing _ ht' _ _ _ _ => exact (tags_apart ht' ht rfl).elim
  | expiredListing _ ht' _ _ _ => exact (tags_apart ht' ht rfl).elim
  | sold _ ht' _ => exact (tags_apart ht' ht rfl).elim
  | bought _ ht' _ => exact (tags_apart ht' ht rfl).elim
  | _ => exact absurd ht (by decide)

/-- A call creates the account of a record with its first act or not at all, and
announces the record if it is a post. -/
theorem Ends.opens (hs : SystemRules E.host) (hw : Wellformed E) (hf : Confined E.host)
    (hc : E.host.CollisionFree) (he : Ends E d m m') (hm : m.trace = []) (hp : p.party.isSome)
    (hk : p.At E.host k) : openings k (acts m') = 0 ∨
      (p.IsPost → ∃ e, .log e ∈ acts m') ∧
        ∃ payer space seeds rest, acts m' = createAct E payer k space E.programId seeds :: rest ∧
          openings k rest = 0 := by
  obtain ⟨as,K,hd,hn,hK⟩ := he
  rw [acts, did_trace _ _ _ hd, hm, List.map_nil, List.nil_append]
  by_cases hKk : K k
  · cases hK k hKk with
    | opened q party payer space seeds rest b hq hparty hsign hfirst hnever hb hst hlog =>
      rw [hq.inj hc hk] at hlog
      subst hfirst
      obtain ⟨s₁,hs₁,hrest⟩ := hd
      simp only [createAct, Act.effect] at hs₁
      split at hs₁
      · obtain ⟨-,-,hnew,-⟩ := hs.create _ _ _ _ _ _ _ hs₁
        have hown : (s₁ k).owner = E.programId := by rw [hnew]
        exact .inr ⟨hlog,payer,space,seeds,rest,rfl,(did_owned hs hw hf hown hrest).created⟩
      · cases hs₁
    | closed q hq ho hparty honce hst => exact .inl (did_owned hs hw hf ho hd).created
    | rekeyed maker bearer nonce hq hmk hnever hr =>
      exact .inl (did_owned hs hw hf hr.owner hd).created
  · apply Or.inl
    apply openings_unsigned hw hk.isPda hd
    intro hj
    rcases hn.signs k hj with hj | ⟨q,hq,hqk⟩
    · exact hKk hj
    · rw [← hqk.inj hc hk, hq] at hp
      cases hp

/-- Only the instructions that open a post log anything. -/
theorem Outcome.unlogged (h : Outcome E d m m' tag) (hm : m.trace = []) (ht : tag ∉ postTags)
    (b : Bytes) : .log b ∉ acts m' := by
  obtain ⟨as,hd,hfoot⟩ := h.within
  rw [acts, did_trace _ _ _ hd, hm]
  exact fun hb => ht (hfoot.logs b hb)

inductive Announces (E : Env) (m' : Machine) (p : Place) (k : Pubkey) : Prop
  | nothing (posts : postsOf k (acts m') = []) (opens : openings k (acts m') = 0)
  | post (v : SwapView) (kind : UInt8) (view : swapView (m'.ledger k).data = v)
      (place : kindPlace kind v.maker v.nonce = p) (posts : postsOf k (acts m') = [v.event kind k])
      (opens : openings k (acts m') = 1)

theorem postsOf_none (h : logs as = []) : postsOf k as = [] := by
  rw [postsOf, h]
  rfl

theorem postsOf_one {b : Bytes} {e : Sdk.PostCreated} (h : logs as = [b])
    (he : Sdk.postCreatedFrom b = some e) : postsOf k as = if e.post = k then [e] else [] := by
  rw [postsOf, h, List.filterMap_cons, List.filterMap_nil, he]
  by_cases hk : e.post = k
  · simp [Option.filter, hk]
  · simp [Option.filter, hk]

theorem Posts.logged {record : Pubkey} {e : Bytes} (h : Posts E record as) (he : .log e ∈ as) :
    logs as = [e] := by
  obtain ⟨payer,space,seeds,b,rest,rfl,hrest⟩ := h
  have hlogs : logs (createAct E payer record space E.programId seeds :: .log b :: rest) = [b] := by
    show b :: logs rest = [b]
    rw [hrest]
  have hmem : e ∈ logs (createAct E payer record space E.programId seeds :: .log b :: rest) :=
    List.mem_filterMap.mpr ⟨_,he,rfl⟩
  rw [hlogs, List.mem_singleton] at hmem
  rw [hlogs, hmem]

/-- What a writer wrote is what it announced. -/
theorem Written.logged {record : Pubkey} {v : SwapView} (h : Written E tag d m' record v)
    (hp : Posts E record (acts m')) : ∃ e, logs (acts m') = [e] ∧
      Sdk.postCreatedFrom e = some (v.event (postKind tag) record) := by
  obtain ⟨e,he,hdec⟩ := h.event
  exact ⟨e,hp.logged he,hdec⟩

theorem Written.announces {record : Pubkey} {v : SwapView} (hs : SystemRules E.host)
    (hw : Wellformed E) (hf : Confined E.host) (hc : E.host.CollisionFree) (he : Ends E d m m')
    (hm : m.trace = []) (h : Written E tag d m' record v) (hposts : Posts E record (acts m'))
    (ht : tag ∈ postTags) (hp : p.IsPost) (hk : p.At E.host k) : Announces E m' p k := by
  obtain ⟨b,hlogs,hdec⟩ := h.logged hposts
  have hone := postsOf_one (k := k) hlogs hdec
  have hopens := he.opens hs hw hf hc hm hp.party hk
  obtain ⟨payer,space,seeds,ev,rest,hacts,-⟩ := hposts
  by_cases hr : record = k
  · subst hr
    have hnonce : v.nonce = slice d 0 32 := congrArg SwapView.nonce h.terms
    refine .post v (postKind tag) h.view ?_ (hone.trans (if_pos rfl)) ?_
    · rw [kindPlace_post ht, hnonce]
      exact h.place.inj hc hk
    · rcases hopens with hzero | ⟨-,payer',space',seeds',rest',hacts',hrest⟩
      · rw [hacts, openings, List.countP_cons_of_pos (by simp [createAct, Act.Opens])] at hzero
        omega
      · rw [hacts', openings, List.countP_cons_of_pos (by simp [createAct, Act.Opens])]
        exact congrArg (·+1) hrest
  · refine .nothing (hone.trans (if_neg hr)) ?_
    rcases hopens with hzero | ⟨-,payer',space',seeds',rest',hacts',-⟩
    · exact hzero
    · rw [hacts] at hacts'
      simp only [createAct, List.cons.injEq, Act.invoke.injEq, Cpi.createAccount.injEq] at hacts'
      exact (hr hacts'.1.1.2.1).elim

theorem handler_announces (hs : SystemRules E.host) (hw : Wellformed E) (hf : Confined E.host)
    (hc : E.host.CollisionFree) (h : handler E tag d m = .ok () m') (hm : m.trace = [])
    (hp : p.IsPost) (hk : p.At E.host k) : Announces E m' p k := by
  have hout : Outcome E d m m' tag := wp_ok (handler_outcome hs hw hf) h
  have he := hout.ends hw hf hc hm
  by_cases ht : tag ∈ postTags
  · obtain ⟨record,v,hv,hposts⟩ := hout.posts hm ht
    exact hv.announces hs hw hf hc he hm hposts ht hp hk
  · have hquiet := hout.unlogged hm ht
    refine .nothing (postsOf_none (logs_quiet hquiet)) ?_
    rcases he.opens hs hw hf hc hm hp.party hk with hzero | ⟨hlog,-⟩
    · exact hzero
    · obtain ⟨e,hmem⟩ := hlog hp
      exact (hquiet e hmem).elim

/-! ## Runs -/

theorem Step.announces (hs : SystemRules H) (hf : Confined H) (hc : H.CollisionFree) (hp : p.IsPost)
    (hk : p.At H k) (hstep : Step H a s s') :
    postsOf k (a.acts s) = [] ∧ openings k (a.acts s) = 0 ∨
      ∃ v kind, swapView (s' k).data = v ∧ kindPlace kind v.maker v.nonce = p ∧
        postsOf k (a.acts s) = [v.event kind k] ∧ openings k (a.acts s) = 1 := by
  cases hstep with
  | call c _ m ho hr =>
    obtain ⟨tag,d,-,hh⟩ := Call.handled hr
    obtain ⟨rfl,hw⟩ := ho
    simp only [Action.acts, hr]
    cases handler_announces hs hw hf hc hh rfl hp hk with
    | nothing hposts hopens => exact .inl ⟨hposts,hopens⟩
    | post v kind hview hplace hposts hopens => exact .inr ⟨v,kind,hview,hplace,hposts,hopens⟩
  | outside => exact .inl ⟨rfl,rfl⟩
  | reap => exact .inl ⟨rfl,rfl⟩

def Current (p : Place) (k : Pubkey) (log : List Act) (s : Ledger) : Prop :=
  ∃ kind, kindPlace kind (swapView (s k).data).maker (swapView (s k).data).nonce = p ∧
    (postsOf k log).getLast? = some ((swapView (s k).data).event kind k)

theorem run_posts (hs : SystemRules H) (hf : Confined H) (hc : H.CollisionFree)
    (hsys : H.programId ≠ systemId) (hg : Genesis H s₀) (h : LoggedRun H Keyed log s₀ s)
    (hp : p.IsPost) (hk : p.At H k) : (postsOf k log).length = openings k log ∧
      (Live H (s k) → Current p k log s) := by
  induction h with
  | refl s =>
    refine ⟨rfl,fun hl => ?_⟩
    exact (hsys (hl.1.symm.trans (hg.vacant hp.party hk).1)).elim
  | tail log a s s₁ s' h hstep hok ih =>
    obtain ⟨hlen,hcur⟩ := ih hg
    have hslot := run_slot hs hf hc hsys hg h.run hp.party hk
    have hcount := (hstep.slotStep hs hf hc hsys hp.party hk hok hslot).count
    rcases hstep.announces hs hf hc hp hk with ⟨hposts,hopens⟩ | ⟨v,kind,hview,hplace,hposts,hopens⟩
    · rw [postsOf_append, openings_append, hposts, hopens, List.append_nil]
      refine ⟨hlen,fun hl => ?_⟩
      -- nothing was opened, so the record lived before the step and was kept
      have hl₁ : Live H (s₁ k) := by
        by_contra hdead
        rw [hopens, liveCount, if_neg hdead, liveCount, if_pos hl] at hcount
        omega
      have hsame := (hstep.stays hs hf hc hp.party hk hl₁ hl).same
      have hdata : (s' k).data = (s₁ k).data := by
        cases p with
        | swap => exact hsame
        | listing => exact hsame
        | _ => exact hp.elim
      obtain ⟨kind,hplace,hlast⟩ := hcur hl₁
      exact ⟨kind,
        by rwa [hdata],by rw [postsOf_append, hposts, List.append_nil, hdata]; exact hlast⟩
    · rw [postsOf_append, openings_append, hposts, hopens, List.length_append, hlen]
      refine ⟨rfl,fun _ => ?_⟩
      subst hview
      exact ⟨kind,hplace,by rw [postsOf_append, hposts]; simp⟩

def Stamped (H : Host) (e : Sdk.PostCreated) : Prop :=
  e.discriminator = discPostCreated ∧ e.magic = magic ∧ e.version = schemaVersion ∧
    (kindPlace e.kind e.maker e.nonce).At H e.post

/-- All that a call logs are stamped events. -/
theorem handler_stamped (hs : SystemRules E.host) (hw : Wellformed E) (hf : Confined E.host)
    (h : handler E tag d m = .ok () m') (hm : m.trace = []) {b : Bytes} (hb : b ∈ logs (acts m')) :
    ∃ e, Sdk.postCreatedFrom b = some e ∧ Stamped E.host e := by
  have hout : Outcome E d m m' tag := wp_ok (handler_outcome hs hw hf) h
  by_cases ht : tag ∈ postTags
  · obtain ⟨record,v,hv,hposts⟩ := hout.posts hm ht
    obtain ⟨b',hlogs,hdec⟩ := hv.logged hposts
    rw [hlogs, List.mem_singleton] at hb
    have hnonce : v.nonce = slice d 0 32 := congrArg SwapView.nonce hv.terms
    refine ⟨v.event (postKind tag) record,hb ▸ hdec,rfl,rfl,rfl,?_⟩
    show (kindPlace (postKind tag) v.maker v.nonce).At E.host record
    rw [kindPlace_post ht, hnonce]
    exact hv.place
  · rw [logs_quiet (hout.unlogged hm ht)] at hb
    cases hb

theorem run_stamped (hs : SystemRules H) (hf : Confined H) {ok : Action → Ledger → Ledger → Prop}
    (h : LoggedRun H ok log s₀ s) {b : Bytes} (hb : b ∈ logs log) :
    ∃ e, Sdk.postCreatedFrom b = some e ∧ Stamped H e := by
  induction h with
  | refl s => cases hb
  | tail log a s s₁ s' h hstep hok ih =>
    rw [logs_append, List.mem_append] at hb
    rcases hb with hb | hb
    · exact ih hb
    · cases hstep with
      | call c _ m ho hr =>
        obtain ⟨tag,d,-,hh⟩ := Call.handled hr
        obtain ⟨rfl,hw⟩ := ho
        simp only [Action.acts, hr] at hb
        exact handler_stamped hs hw hf hh rfl hb
      | outside => cases hb
      | reap => cases hb

/-- Whoever follows the feed of a run knows the open posts. All that is logged
are stamped events. Each post was announced once for every time it was closed,
and once more while it is open, and then the last event gives its terms. -/
theorem feed_exact (hs : SystemRules H) (hf : Confined H) (hc : H.CollisionFree)
    (hsys : H.programId ≠ systemId) (hg : Genesis H s₀) (h : LoggedRun H Keyed log s₀ s) :
    (∀ b ∈ logs log, ∃ e, Sdk.postCreatedFrom b = some e ∧ Stamped H e) ∧
      ∀ p k, p.IsPost → p.At H k →
        (postsOf k log).length = closings k log+liveCount H (s k) ∧
        (Live H (s k) → Current p k log s) := by
  constructor
  · exact fun b hb => run_stamped hs hf h hb
  · intro p k hp hk
    obtain ⟨hlen,hcur⟩ := run_posts hs hf hc hsys hg h hp hk
    exact ⟨hlen.trans (run_count hs hf hc hsys hg h hp.party hk),hcur⟩

section
open Xete.Market

theorem LoggedRun.then {m : Machine} (h : LoggedRun H Keyed log s₀ s) (ho : c.On H)
    (hz : ¬c.env.signed zeroKey) (hr : c.result s = some m) :
    LoggedRun H Keyed (log ++ acts m) s₀ m.ledger := by
  have hstep := LoggedRun.tail log (.call c) s₀ s m.ledger h (.call c s m ho hr) (keyed_of hz)
  simp only [Action.acts, hr] at hstep
  exact hstep

/-- A post that is opened, cancelled and opened again on other terms is announced twice. -/
theorem feed_exact_reopened : ∃ m₁ m₂ m₃ : Machine, (openSwapCall 5 7).result start = some m₁ ∧
    cancelSwapCall.result m₁.ledger = some m₂ ∧
    (openSwapCall 6 8).result (reap m₂.ledger) = some m₃ ∧
    (postsOf swapKey (acts m₁ ++ acts m₂ ++ acts m₃)).length = 2 ∧
    Current (.swap maker nonce) swapKey (acts m₁ ++ acts m₂ ++ acts m₃) m₃.ledger := by
  have h : (((openSwapCall 5 7).result start).any fun m₁ => (cancelSwapCall.result m₁.ledger).any
    fun m₂ =>
      ((openSwapCall 6 8).result (reap m₂.ledger)).any fun m₃ =>
        decide (closings swapKey (acts m₁ ++ acts m₂ ++ acts m₃) = 1) &&
          decide (Live market (m₃.ledger swapKey))) = true := by decide +kernel
  simp only [Option.any_eq_true, Bool.and_eq_true, decide_eq_true_eq] at h
  obtain ⟨m₁,h₁,m₂,h₂,m₃,h₃,hclosed,hl⟩ := h
  have hopened : LoggedRun market Keyed (acts m₁) start m₁.ledger :=
    (LoggedRun.refl start).then (sees_on _ _ _ _ (by decide)) (by decide) h₁
  have hcancelled := hopened.then (sees_on _ _ _ _ (by decide)) (by decide) h₂
  have hreaped := LoggedRun.tail _ .reap _ _ _ hcancelled (.reap _)
    (fun c hc => Action.noConfusion hc)
  have hrun := hreaped.then (sees_on _ _ _ _ (by decide)) (by decide) h₃
  rw [show Action.acts .reap m₂.ledger = [] from rfl, List.append_nil] at hrun
  obtain ⟨-,hposts⟩ := feed_exact market_systemRules market_confined market_collisionFree
    market_apart.notSystem start_genesis hrun
  obtain ⟨hcount,hcur⟩ := hposts (.swap maker nonce) swapKey trivial ⟨rfl,255,by decide⟩
  refine ⟨m₁,m₂,m₃,h₁,h₂,h₃,?_,hcur hl⟩
  rw [hcount, hclosed, liveCount, if_pos hl]

end

end Xete.Swap
