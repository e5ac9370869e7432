import XetePrograms.Solana.Checked
import XetePrograms.Swap.BasketRecord

/-!
# Opening a basket stays in bounds

`open_basket` as it is compiled, where every index is checked. It does what the
plain one does, and it never reaches an index that is out of bounds.
-/

set_option autoImplicit false

namespace Xete.Swap
open Xete.Octets Xete.Weakest Xete.Chain Xete.Token Xete.Runtime Xete.Rules Xete.Checked

section
variable (E : Env)

def accountIndexed (i : ℕ) : Exec AccountInfo := unwrap E.accounts[i]? .outOfBounds

def requireAliasIndexed (config : AccountInfo) (caller : Pubkey) (aliasAcct : AccountInfo) :
    Exec Unit := do
  failIf ((← ownerOf config) ≠ E.programId) .illegalOwner
  let (cfgPda,_) ← findAddress E configSeeds
  failIf (cfgPda ≠ config.key) .invalidSeeds
  let c ← dataOf config
  failIf (c.length ≠ configLen) .invalidAccountData
  let key ← rangeOf c cAliasProgram 32
  let aliasProgram := keyAt key 0
  if aliasProgram = zeroKey then
    return ()
  failIf ((← ownerOf aliasAcct) ≠ aliasProgram) .invalidArgument
  let a ← dataOf aliasAcct
  failIf (a.length ≠ aliasLen) .invalidArgument
  let named ← rangeOf a 0 32
  failIf (named ≠ caller.bytes) .invalidArgument

def recordWantIndexed (swap : AccountInfo) (d : Bytes) (wantOff j : ℕ) : Exec Unit := do
  let e := wantOff+j*entryLen
  let amt ← rangeOf d (e+32) 8
  failIf (natLe amt = 0) .invalidInstructionData
  let s ← dataOf swap
  let entry ← rangeOf d e entryLen
  let s ← copyInto s [(bWant+j*entryLen,entry)]
  perform E (.write swap.key s)

def escrowLegIndexed (maker swap tokenProg : AccountInfo) (d nonce : Bytes)
    (giveAmtsOff wantCount i : ℕ) : Exec Unit := do
  let giveMint ← accountIndexed E (6+i*3)
  let giveVault ← accountIndexed E (6+i*3+1)
  let makerGive ← accountIndexed E (6+i*3+2)
  let amtBytes ← rangeOf d (giveAmtsOff+i*8) 8
  let amt := natLe amtBytes
  failIf (amt = 0) .invalidInstructionData
  let s ← dataOf swap
  forEach (List.range wantCount) (fun j => do
    let key ← rangeOf s (bWant+j*entryLen) 32
    failIf (key = giveMint.key.bytes) .invalidArgument)
  let idx := UInt8.ofNat i
  let (vpda,vbump) ← findAddress E (bvaultSeeds maker.key nonce idx)
  failIf (vpda ≠ giveVault.key) .invalidSeeds
  createPda E maker giveVault tokenAcctLen splTokenId
    (bumped (bvaultSeeds maker.key nonce idx) vbump)
  tokenInit E tokenProg giveVault giveMint swap.key
  let dec ← mintDecimals giveMint
  tokenTransfer E tokenProg makerGive giveMint giveVault maker amt dec none
  let s ← dataOf swap
  let s ← copyInto s [(bGive+i*entryLen,giveMint.key.bytes),(bGive+i*entryLen+32,le 8 amt)]
  perform E (.write swap.key s)

def openBasketIndexed (d : Bytes) : Exec Unit := do
  failIf (d.length < 34) .invalidInstructionData
  let nonce ← rangeOf d 0 32
  let giveByte ← byteOf d 32
  let wantByte ← byteOf d 33
  let giveCount := giveByte.toNat
  let wantCount := wantByte.toNat
  failIf (giveCount < 1 ∨ maxLeg < giveCount ∨ maxLeg < wantCount) .invalidInstructionData
  let giveAmtsOff := 34
  let wantOff := giveAmtsOff+giveCount*8
  let tailOff := wantOff+wantCount*entryLen
  failIf (d.length ≠ tailOff+73) .invalidInstructionData
  let expiryBytes ← rangeOf d tailOff 8
  let expiry := intLe expiryBytes
  let targetTaker ← rangeOf d (tailOff+8) 32
  let authMode ← byteOf d (tailOff+40)
  let claimAuth ← rangeOf d (tailOff+41) 32
  failIf (authMode ≠ authNormal ∧ authMode ≠ authBearer) .invalidInstructionData
  failIf (authMode = authBearer ∧ (wantCount ≠ 0 ∨ claimAuth = zeros 32)) .invalidArgument
  failIf (expiry ≤ E.clock) .invalidArgument
  failIf (E.accounts.length ≠ 6+giveCount*3) .notEnoughAccountKeys
  let maker ← accountIndexed E 0
  let swap ← accountIndexed E 1
  let tokenProg ← accountIndexed E 3
  let config ← accountIndexed E 4
  let aliasAcct ← accountIndexed E 5
  failIf (maker.isSigner = false) .missingRequiredSignature
  requireAliasIndexed E config maker.key aliasAcct
  let (swapPda,bump) ← findAddress E (basketSeeds maker.key nonce)
  failIf (swapPda ≠ swap.key) .invalidSeeds
  createPda E maker swap basketLen E.programId (bumped (basketSeeds maker.key nonce) bump)
  let s ← dataOf swap
  let s ← copyInto s (basketHeader maker.key giveCount wantCount targetTaker authMode
    claimAuth expiry bump nonce)
  perform E (.write swap.key s)
  forEach (List.range wantCount) (recordWantIndexed E swap d wantOff)
  forEach (List.range giveCount) (escrowLegIndexed E maker swap tokenProg d nonce giveAmtsOff
    wantCount)

end

variable {E : Env} {m m' : Machine} {d : Bytes}

/-! ## The checks change nothing else -/

section
variable {β : Type} {p q : Prop} [Decidable p] [Decidable q] {e : ProgramError}

theorem failIf_congr {f g : Unit → Exec β} (h : ¬p → f () = g ()) :
    (failIf p e >>= f) = (failIf p e >>= g) := by
  by_cases hp : p
  · have hfail : (failIf p e : Exec Unit) = throw e := if_pos hp
    rw [hfail]
    rfl
  · have hpass : (failIf p e : Exec Unit) = pure () := if_neg hp
    rw [hpass, pure_bind, pure_bind]
    exact h hp

theorem failIf_or : (failIf (p ∨ q) e : Exec Unit) = (do failIf p e; failIf q e) := by
  by_cases hp : p
  · have hfail : (failIf p e : Exec Unit) = throw e := if_pos hp
    have hor : (failIf (p ∨ q) e : Exec Unit) = throw e := if_pos (.inl hp)
    rw [hfail, hor]
    rfl
  · have hpass : (failIf p e : Exec Unit) = pure () := if_neg hp
    rw [hpass, pure_bind]
    by_cases hq : q
    · exact (if_pos (.inr hq)).trans (if_pos hq).symm
    · exact (if_neg (not_or.mpr ⟨hp,hq⟩)).trans (if_neg hq).symm

end

theorem requireAliasIndexed_eq (config aliasAcct : AccountInfo) (caller : Pubkey) :
    requireAliasIndexed E config caller aliasAcct = requireAlias E config caller aliasAcct := by
  refine bind_congr fun _ => bind_congr fun _ => bind_congr fun p => bind_congr fun _ => ?_
  refine bind_congr fun c => failIf_congr fun hc => ?_
  rw [not_not] at hc
  have hin : cAliasProgram+32 ≤ c.length := by rw [hc]; decide
  have hkey : keyAt (slice c cAliasProgram 32) 0 = keyAt c cAliasProgram :=
    keyAt_congr (slice_slice _ _ _ _ _ (by decide))
  rw [rangeOf_eq hin, pure_bind]
  dsimp only
  rw [hkey]
  by_cases hz : keyAt c cAliasProgram = zeroKey
  · rw [if_pos hz, if_pos hz]
  · rw [if_neg hz, if_neg hz]
    refine bind_congr fun _ => bind_congr fun _ => bind_congr fun a => ?_
    rw [failIf_or]
    apply failIf_congr
    intro ha
    rw [not_not] at ha
    rw [rangeOf_eq (by rw [ha]; decide), pure_bind]

theorem refines_accountIndexed {β : Type} {i : ℕ} {f g : AccountInfo → Exec β}
    (h : ∀ a, Refines .outOfBounds (f a) (g a)) :
    Refines .outOfBounds (accountIndexed E i >>= f) (accountAt E i >>= g) := by
  rw [accountIndexed, accountAt]
  cases E.accounts[i]? with
  | none => exact fun m => .inr ⟨m,rfl⟩
  | some a => exact h a

theorem recordWantIndexed_refines (swap : AccountInfo) (off j : ℕ) :
    Refines .outOfBounds (recordWantIndexed E swap d off j) (recordWant E swap d off j) := by
  refine refines_rangeOf (refines_step fun _ => refines_step fun s => ?_)
  exact refines_rangeOf (refines_copyInto (refines_refl _ _))

theorem escrowLegIndexed_refines (maker swap tokenProg : AccountInfo) (nonce : Bytes)
    (off wants i : ℕ) :
    Refines .outOfBounds (escrowLegIndexed E maker swap tokenProg d nonce off wants i)
      (escrowLeg E maker swap tokenProg d nonce off wants i) := by
  refine refines_accountIndexed fun giveMint => refines_accountIndexed fun giveVault => ?_
  apply refines_accountIndexed
  intro makerGive
  refine refines_rangeOf (refines_step fun _ => refines_step fun s => ?_)
  have hloop : Refines .outOfBounds
      (forEach (List.range wants) (fun j => do
        let key ← rangeOf s (bWant+j*entryLen) 32
        failIf (key = giveMint.key.bytes) .invalidArgument))
      (failIf (∃ j ∈ List.range wants, slice s (bWant+j*entryLen) 32 = giveMint.key.bytes)
        .invalidArgument) := by
    rw [← forEach_failIf]
    exact refines_forEach _ fun j => refines_rangeOf (refines_refl _ _)
  refine refines_bind hloop fun _ => refines_step fun p => refines_step fun _ =>
    refines_step fun _ =>
    refines_step fun _ => refines_step fun dec => refines_step fun _ => refines_step fun s' => ?_
  exact refines_copyInto (refines_refl _ _)

theorem openBasketIndexed_refines :
    Refines .outOfBounds (openBasketIndexed E d) (openBasket E d) := by
  refine refines_step fun _ => refines_rangeOf (refines_byteOf (refines_byteOf ?_))
  refine refines_step fun _ => refines_step fun _ => ?_
  refine refines_rangeOf (refines_rangeOf (refines_byteOf (refines_rangeOf ?_)))
  refine refines_step fun _ => refines_step fun _ => refines_step fun _ => refines_step fun _ => ?_
  refine refines_accountIndexed fun maker => refines_accountIndexed fun swap => ?_
  refine refines_accountIndexed fun tokenProg => refines_accountIndexed fun config => ?_
  refine refines_accountIndexed fun aliasAcct => refines_step fun _ => ?_
  rw [requireAliasIndexed_eq]
  refine refines_step fun _ => refines_step fun p => refines_step fun _ => refines_step fun _ => ?_
  refine refines_step fun s => refines_copyInto (refines_step fun _ => ?_)
  refine refines_bind (refines_forEach _ fun j => recordWantIndexed_refines swap _ j) fun _ => ?_
  exact refines_forEach _ fun i => escrowLegIndexed_refines maker swap tokenProg _ _ _ i

/-! ## No index is out of bounds -/

def OwnsBytes (E : Env) (k : Pubkey) (n : ℕ) (s : Ledger) : Prop :=
  (s k).owner = E.programId ∧ (s k).data.length = n

section
variable {k : Pubkey} {n : ℕ} {s s' : Ledger}

theorem OwnsBytes.invoke (hw : Wellformed E) (hf : Confined E.host) (h : OwnsBytes E k n s)
    {c : Cpi} {seeds : Option (List Bytes)} (he : (Act.invoke c seeds).effect E s = some s') :
    OwnsBytes E k n s' := by
  obtain ⟨ho,hd,-⟩ := (effect_frame hw hf _ he).owned k h.1 (by simp)
  exact ⟨ho,by rw [hd]; exact h.2⟩

theorem OwnsBytes.write (h : OwnsBytes E k n s) {b : Bytes}
    (he : (Act.write k b).effect E s = some s') :
    OwnsBytes E k n s' := by
  simp only [Act.effect] at he
  split at he
  · rename_i hc
    cases he
    refine ⟨by simpa using h.1,?_⟩
    rw [setData_same, hc.2.2, h.2]
  · cases he

end

theorem accountIndexed_eq {i : ℕ} (h : i < E.accounts.length) :
    ∃ a, accountIndexed E i = pure a := by
  refine ⟨E.accounts[i],?_⟩
  rw [accountIndexed, List.getElem?_eq_getElem h]
  rfl

theorem recordWantIndexed_wpe {swap : AccountInfo} {off j : ℕ} (hj : j < maxLeg)
    (hd : off+j*entryLen+entryLen ≤ d.length) (hs : OwnsBytes E swap.key basketLen m.ledger) :
    wpe (recordWantIndexed E swap d off j) (fun _ m' => OwnsBytes E swap.key basketLen m'.ledger)
      (fun e _ => e ≠ .outOfBounds) m := by
  have hlen : (slice d (off+j*entryLen) entryLen).length = entryLen := slice_length _ _ _ hd
  simp only [maxLeg, entryLen] at hj hd hlen ⊢
  unfold recordWantIndexed
  dsimp only
  rw [rangeOf_eq (by simp only [entryLen]; omega), pure_bind, wpe_bind, wpe_failIf]
  refine ⟨fun _ => ?_,fun _ => by decide⟩
  rw [wpe_bind, wpe_dataOf, rangeOf_eq (by simp only [entryLen]; omega), pure_bind,
    copyInto_eq
    (by simp only [List.mem_singleton, forall_eq, entryLen, hlen, hs.2, bWant, basketLen]; omega),
    pure_bind, wpe_perform]
  exact ⟨fun s he => hs.write he,fun _ => by decide⟩

theorem escrowLegIndexed_wpe (hw : Wellformed E) (hf : Confined E.host) {maker swap tokenProg :
    AccountInfo} {nonce : Bytes} {off wants i : ℕ} (hi : i < maxLeg) (hwants : wants ≤ maxLeg)
    (hacc : 6+i*3+2 < E.accounts.length) (hd : off+i*8+8 ≤ d.length)
    (hs : OwnsBytes E swap.key basketLen m.ledger) :
    wpe (escrowLegIndexed E maker swap tokenProg d nonce off wants i)
      (fun _ m' => OwnsBytes E swap.key basketLen m'.ledger) (fun e _ => e ≠ .outOfBounds) m := by
  simp only [maxLeg] at hi hwants
  obtain ⟨giveMint,h0⟩ := accountIndexed_eq (E := E) (i := 6+i*3) (by omega)
  obtain ⟨giveVault,h1⟩ := accountIndexed_eq (E := E) (i := 6+i*3+1) (by omega)
  obtain ⟨makerGive,h2⟩ := accountIndexed_eq (E := E) (i := 6+i*3+2) hacc
  unfold escrowLegIndexed
  rw [h0, pure_bind, h1, pure_bind, h2, pure_bind, rangeOf_eq hd, pure_bind]
  dsimp only
  rw [wpe_bind, wpe_failIf]
  refine ⟨fun _ => ?_,fun _ => by decide⟩
  rw [wpe_bind, wpe_dataOf, wpe_bind]
  have hloop : wpe (forEach (List.range wants) (fun j => do
      let key ← rangeOf (m.ledger swap.key).data (bWant+j*entryLen) 32
      failIf (key = giveMint.key.bytes) .invalidArgument))
      (fun _ m₁ => m₁ = m) (fun e _ => e ≠ .outOfBounds) m := by
    refine wpe_mono (wpe_forEach (fun left m₁ => m₁ = m ∧ ∀ j ∈ left, j < wants) _ ?_ _ m
      ⟨rfl,fun j hj => List.mem_range.mp hj⟩) (fun _ _ h => h.1) (fun _ _ h => h)
    rintro j left _ ⟨rfl,hleft⟩
    have hj := hleft j (by simp)
    rw [rangeOf_eq (by rw [hs.2]; simp only [bWant, entryLen, basketLen]; omega), pure_bind,
      wpe_failIf]
    exact ⟨fun _ => ⟨rfl,fun q hq => hleft q (by simp [hq])⟩,fun _ => by decide⟩
  refine wpe_mono hloop ?_ (fun _ _ h => h)
  rintro _ _ rfl
  simp only [findAddress, createPda, tokenInit, mintDecimals, tokenTransfer, wpe_bind, wpe_unwrap,
    wpe_failIf, wpe_perform, wpe_dataOf, Prod.forall]
  refine ⟨fun vpda vbump _ => ⟨fun _ => ⟨fun s₁ h₁ => ⟨fun s₂ h₂ => ⟨fun dec _ => ⟨fun s₃ h₃ => ?_,
    ?_⟩,?_⟩,?_⟩,?_⟩,?_⟩,fun _ => by decide⟩
  rotate_left
  all_goals first | exact fun _ => by decide | skip
  have hs₃ : OwnsBytes E swap.key basketLen s₃ :=
    ((hs.invoke hw hf h₁).invoke hw hf h₂).invoke hw hf h₃
  rw [copyInto_eq ?_, wpe_pure, wpe_perform]
  · exact ⟨fun s₄ h₄ => hs₃.write h₄,fun _ => by decide⟩
  · have hlen : (s₃ swap.key).data.length = basketLen := hs₃.2
    simp only [List.mem_cons, List.not_mem_nil, or_false, forall_eq_or_imp, forall_eq, next_ledger,
      hlen, Pubkey.bytes_length, le_length, bGive, entryLen, basketLen]
    omega

theorem requireAlias_wpe {config aliasAcct : AccountInfo} {caller : Pubkey} :
    wpe (requireAlias E config caller aliasAcct) (fun _ m' => m' = m)
      (fun e _ => e ≠ .outOfBounds) m := by
  simp only [requireAlias, findAddress, wpe_bind, wpe_ownerOf, wpe_failIf, wpe_unwrap, wpe_dataOf,
    wpe_ite, wpe_pure, Prod.forall]
  refine ⟨fun _ => ⟨fun _ _ _ => ⟨fun _ => ⟨fun _ => ⟨fun _ => trivial,
    fun _ => ⟨fun _ => ⟨fun _ => trivial,?_⟩,?_⟩⟩,?_⟩,?_⟩,fun _ => by decide⟩,?_⟩ <;>
  exact fun _ => by decide

/-- Opening a basket never leaves a slice. -/
theorem openBasketIndexed_wpe (hs : SystemRules E.host) (hw : Wellformed E) (hf : Confined E.host) :
    wpe (openBasketIndexed E d) (fun _ _ => True) (fun e _ => e ≠ .outOfBounds) m := by
  unfold openBasketIndexed
  rw [wpe_bind, wpe_failIf]
  refine ⟨fun hlong => ?_,fun _ => by decide⟩
  rw [rangeOf_eq (by omega), pure_bind, byteOf_eq (by omega), pure_bind, byteOf_eq (by omega),
    pure_bind]
  dsimp only
  rw [wpe_bind, wpe_failIf]
  refine ⟨fun hcount => ?_,fun _ => by decide⟩
  rw [wpe_bind, wpe_failIf]
  refine ⟨fun hlen => ?_,fun _ => by decide⟩
  rw [not_not] at hlen
  simp only [maxLeg, not_or, not_lt] at hcount
  obtain ⟨hgive,hgives,hwants⟩ := hcount
  rw [rangeOf_eq (by omega), pure_bind, rangeOf_eq (by omega), pure_bind, byteOf_eq (by omega),
    pure_bind, rangeOf_eq (by omega), pure_bind]
  have htaker : (slice d (34+(byteAt d 32).toNat*8+(byteAt d 33).toNat*entryLen+8) 32).length =
    32 :=
    slice_length _ _ _ (by omega)
  have hclaim : (slice d (34+(byteAt d 32).toNat*8+(byteAt d 33).toNat*entryLen+41) 32).length =
    32 :=
    slice_length _ _ _ (by omega)
  have hnonce : (slice d 0 32).length = 32 := slice_length _ _ _ (by omega)
  rw [wpe_bind, wpe_failIf]
  refine ⟨fun _ => ?_,fun _ => by decide⟩
  rw [wpe_bind, wpe_failIf]
  refine ⟨fun _ => ?_,fun _ => by decide⟩
  rw [wpe_bind, wpe_failIf]
  refine ⟨fun _ => ?_,fun _ => by decide⟩
  rw [wpe_bind, wpe_failIf]
  refine ⟨fun hacc => ?_,fun _ => by decide⟩
  rw [not_not] at hacc
  obtain ⟨maker,h0⟩ := accountIndexed_eq (E := E) (i := 0) (by omega)
  obtain ⟨swap,h1⟩ := accountIndexed_eq (E := E) (i := 1) (by omega)
  obtain ⟨tokenProg,h3⟩ := accountIndexed_eq (E := E) (i := 3) (by omega)
  obtain ⟨config,h4⟩ := accountIndexed_eq (E := E) (i := 4) (by omega)
  obtain ⟨aliasAcct,h5⟩ := accountIndexed_eq (E := E) (i := 5) (by omega)
  rw [h0, pure_bind, h1, pure_bind, h3, pure_bind, h4, pure_bind, h5, pure_bind, wpe_bind,
    wpe_failIf]
  refine ⟨fun _ => ?_,fun _ => by decide⟩
  rw [requireAliasIndexed_eq, wpe_bind]
  refine wpe_mono requireAlias_wpe ?_ (fun _ _ h => h)
  rintro _ _ rfl
  simp only [findAddress, createPda, wpe_bind, wpe_unwrap, wpe_failIf, wpe_perform, wpe_dataOf,
    Prod.forall]
  refine ⟨fun swapPda bump _ => ⟨fun _ => ⟨fun s₁ h₁ => ?_,fun _ => by decide⟩,
    fun _ => by decide⟩,fun _ => by decide⟩
  obtain ⟨⟨ho,hz⟩,-⟩ := created_stores hs ⟨s₁,h₁,rfl⟩
  have hlen₁ : (s₁ swap.key).data.length = basketLen := by
    rw [← zeros_length basketLen]
    exact congrArg List.length hz
  rw [copyInto_eq ?_, wpe_pure, wpe_bind, wpe_perform]
  · refine ⟨fun s₂ h₂ => ?_,fun _ => by decide⟩
    have hs₂ : OwnsBytes E swap.key basketLen s₂ := OwnsBytes.write ⟨ho,hlen₁⟩ h₂
    rw [wpe_bind]
    refine wpe_mono (wpe_forEach (fun (left : List ℕ) (m' : Machine) =>
      OwnsBytes E swap.key basketLen m'.ledger ∧ ∀ j ∈ left, j < (byteAt d 33).toNat) _ ?_ _ _ ⟨hs₂,
        fun j hj => List.mem_range.mp hj⟩) ?_
      (fun _ _ h => h)
    · rintro j left m₁ ⟨h₁,hleft⟩
      have hj := hleft j (by simp)
      refine wpe_mono (recordWantIndexed_wpe (by simp only [maxLeg]; omega)
        (by simp only [entryLen] at hlen ⊢; omega) h₁) ?_ (fun _ _ h => h)
      exact fun _ m₂ h₂ => ⟨h₂,fun i hi => hleft i (by simp [hi])⟩
    · rintro _ m₁ ⟨h₁,-⟩
      refine wpe_mono (wpe_forEach (fun (left : List ℕ) (m' : Machine) =>
        OwnsBytes E swap.key basketLen m'.ledger ∧ ∀ i ∈ left, i < (byteAt d 32).toNat) _ ?_ _ _
          ⟨h₁,fun i hi => List.mem_range.mp hi⟩)
        (fun _ _ _ => trivial) (fun _ _ h => h)
      rintro i left m₂ ⟨h₂,hleft⟩
      have hi := hleft i (by simp)
      refine wpe_mono (escrowLegIndexed_wpe hw hf (by simp only [maxLeg]; omega) hwants (by omega)
        (by omega) h₂) ?_ (fun _ _ h => h)
      exact fun _ m₃ h₃ => ⟨h₃,fun j hj => hleft j (by simp [hj])⟩
  · simp only [next_ledger, hlen₁]
    intro f hf
    simp only [basketHeader, List.mem_cons, List.not_mem_nil, or_false] at hf
    rcases hf with rfl | rfl | rfl | rfl | rfl | rfl | rfl | rfl | rfl | rfl <;>
      simp [htaker, hclaim, hnonce, bMaker, bGiveCount, bWantCount, bTaker, bAuthMode, bClaimAuth,
        bExpiry, bStatus, bBump, bNonce, basketLen]

/-- The indexes of `open_basket` stay in bounds, and checking them changes nothing. -/
theorem openBasketIndexed_eq (hs : SystemRules E.host) (hw : Wellformed E) (hf : Confined E.host)
    (d : Bytes) (m : Machine) :
    openBasketIndexed E d m = openBasket E d m ∧
    ∀ m', openBasketIndexed E d m ≠ .error .outOfBounds m' := by
  have hbounds : ∀ m', openBasketIndexed E d m ≠ .error .outOfBounds m' :=
    fun m' hx => wpe_error (openBasketIndexed_wpe hs hw hf) hx rfl
  refine ⟨?_,hbounds⟩
  cases openBasketIndexed_refines (E := E) (d := d) m with
  | inl he => exact he
  | inr hp =>
    obtain ⟨m',hx⟩ := hp
    exact (hbounds m' hx).elim

end Xete.Swap
