import XetePrograms.Solana.Checked
import XetePrograms.Swap.Process

/-!
# What the signature of a sealed order binds

The native Ed25519 program checks every signature entry of its instruction at
the offsets that the entry declares. The layout check pins these offsets, and
the two message formats determine every term of an order.
-/

set_option autoImplicit false

namespace Xete.Swap
open Xete.Octets Xete.Weakest Xete.Chain Xete.Runtime

/-! ## The native program -/

def entryData (instructions : List TxInstruction) (own : Bytes) (index : ℕ) : Option Bytes :=
  if index = 65535 then some own else (instructions[index]?).map TxInstruction.data

def EntryValid (valid : Pubkey → Bytes → Bytes → Prop) (instructions : List TxInstruction)
    (own : Bytes) (i : ℕ) : Prop :=
  let o := 2+i*14
  ∃ sigData keyData msgData,
    entryData instructions own (u16At own (o+2)) = some sigData ∧
    entryData instructions own (u16At own (o+6)) = some keyData ∧
    entryData instructions own (u16At own (o+12)) = some msgData ∧
    valid (keyAt keyData (u16At own (o+4))) (slice sigData (u16At own o) 64)
      (slice msgData (u16At own (o+8)) (u16At own (o+10)))

/-- The transaction reached this instruction, so that the native program
accepted every instruction it was given before. -/
def NativeVerified (valid : Pubkey → Bytes → Bytes → Prop) (E : Env) : Prop :=
  ∀ j < E.current, ∀ ed, E.instructions[j]? = some ed → ed.programId = ed25519Program →
    ∀ i < (byteAt ed.data 0).toNat, EntryValid valid E.instructions ed.data i

/-- The instruction just before this one verified a signature by `signer` over
`message`. -/
def VerifiedBefore (valid : Pubkey → Bytes → Bytes → Prop) (E : Env) (signer : Pubkey)
    (message : Bytes) : Prop :=
  E.current ≠ 0 ∧ ∃ ed, E.instructions[E.current-1]? = some ed ∧ ed.programId = ed25519Program ∧
    valid signer (slice ed.data 48 64) message

/-! ## The layout check -/

theorem ed25519LayoutOk_iff (data : Bytes) (signer : Pubkey) (message : Bytes) :
    ed25519LayoutOk data signer message = .ok () ↔
      message.length ≤ 65535 ∧ data.length = 112+message.length ∧
      slice data 0 16 = ed25519Header message.length ∧ slice data 16 32 = signer.bytes ∧
      slice data 112 message.length = message := by
  unfold ed25519LayoutOk
  constructor
  · intro h
    simp only [bind, Except.bind, pure, Except.pure, throw, throwThe, MonadExceptOf.throw] at h
    split_ifs at h with h₁ h₂ h₃ h₄ h₅
    simp_all
  · rintro ⟨h₁,h₂,h₃,h₄,h₅⟩
    simp [h₂, h₃, h₄, h₅, Nat.not_lt.mpr h₁]
    rfl

/-- The offsets that the header declares, whatever the length of the message. -/
theorem header_offsets (n : ℕ) :
    u16At (ed25519Header n) 2 = 48 ∧ u16At (ed25519Header n) 4 = 65535 ∧
    u16At (ed25519Header n) 6 = 16 ∧ u16At (ed25519Header n) 8 = 65535 ∧
    u16At (ed25519Header n) 10 = 112 ∧ u16At (ed25519Header n) 14 = 65535 := by
  simp [u16At, ed25519Header, slice, le, natLe]

theorem header_size (n : ℕ) (h : n ≤ 65535) : u16At (ed25519Header n) 12 = n := by
  have hs : slice (ed25519Header n) 12 2 = le 2 n := by simp [ed25519Header, slice, le]
  rw [u16At, hs, natLe_le 2 n (by omega)]

/-- The layout check leaves the native program no other offsets than the fixed ones. -/
theorem layout_entry (valid : Pubkey → Bytes → Bytes → Prop) (instructions : List TxInstruction)
    (data : Bytes) (signer : Pubkey) (message : Bytes)
    (h : ed25519LayoutOk data signer message = .ok ()) :
    EntryValid valid instructions data 0 ↔ valid signer (slice data 48 64) message := by
  obtain ⟨hl,hd,hh,hk,hm⟩ := (ed25519LayoutOk_iff _ _ _).mp h
  have hf : ∀ off, off+2 ≤ 16 → u16At data off = u16At (ed25519Header message.length) off := by
    intro off ho
    rw [u16At, u16At, ← hh, slice_slice _ _ _ _ _ ho, Nat.zero_add]
  obtain ⟨h₂,h₄,h₆,h₈,h₁₀,h₁₄⟩ := header_offsets message.length
  rw [← hf _ (by decide)] at h₂ h₄ h₆ h₈ h₁₀ h₁₄
  have hsz : u16At data 12 = message.length := by rw [hf _ (by decide), header_size _ hl]
  simp only [EntryValid, Nat.zero_mul, Nat.add_zero, Nat.reduceAdd, h₂, h₄, h₆, h₈, h₁₀, h₁₄, hsz,
    entryData, if_true, Option.some.injEq]
  constructor
  · rintro ⟨_,_,_,rfl,rfl,rfl,hv⟩
    rwa [keyAt_eq _ _ _ hk, hm] at hv
  · intro hv
    refine ⟨_,_,_,rfl,rfl,rfl,?_⟩
    rwa [keyAt_eq _ _ _ hk, hm]

/-- The header declares one signature. -/
theorem layout_count (data : Bytes) (signer : Pubkey) (message : Bytes)
    (h : ed25519LayoutOk data signer message = .ok ()) : byteAt data 0 = 1 := by
  have hh := ((ed25519LayoutOk_iff _ _ _).mp h).2.2.1
  have hs := slice_slice data 0 16 0 1 (by decide)
  rw [hh] at hs
  rw [byteAt_eq_slice, ← hs]
  rfl

/-- The canonical instruction passes the check. -/
theorem ed25519LayoutOk_canonical (signer : Pubkey) (sig message : Bytes) (hs : sig.length = 64)
    (hm : message.length ≤ 65535) :
    ed25519LayoutOk (ed25519Header message.length ++ signer.bytes ++ sig ++ message) signer
      message = .ok () := by
  have hh : (ed25519Header message.length).length = 16 := by simp [ed25519Header]
  rw [ed25519LayoutOk_iff]
  refine ⟨hm,?_,?_,?_,?_⟩
  · simp [hh, hs]
    omega
  · rw [List.append_assoc, List.append_assoc, slice_append_left _ _ _ _ (by omega),
      slice_all _ _ hh]
  · rw [List.append_assoc, List.append_assoc, slice_append_right _ _ _ _ (by omega), hh,
      slice_append_left _ _ _ _ (by simp), Nat.sub_self, slice_all _ _ (by simp)]
  · rw [slice_append_right _ _ _ _ (by simp [hh, hs])]
    simp [hh, hs, slice]

theorem canonical_sig (signer : Pubkey) (sig message : Bytes) (hs : sig.length = 64) :
    slice (ed25519Header message.length ++ signer.bytes ++ sig ++ message) 48 64 = sig := by
  have hh : (ed25519Header message.length ++ signer.bytes).length = 48 := by simp [ed25519Header]
  rw [List.append_assoc, slice_append_right _ _ _ _ (by omega), hh,
    slice_append_left _ _ _ _ (by omega), Nat.sub_self, slice_all _ _ hs]

/-! ## The layout check is exact -/

def canonical (signer : Pubkey) (sig msg : Bytes) : Bytes :=
  [1,0] ++ le 2 48 ++ le 2 65535 ++ le 2 16 ++ le 2 65535 ++ le 2 112 ++ le 2 msg.length ++
    le 2 65535 ++ signer.bytes ++ sig ++ msg

theorem canonical_eq (signer : Pubkey) (sig msg : Bytes) :
    canonical signer sig msg = ed25519Header msg.length ++ signer.bytes ++ sig ++ msg := rfl

/-- Nothing but the signature is left open. -/
theorem ed25519LayoutOk_iff_canonical (data : Bytes) (signer : Pubkey) (message : Bytes) :
    ed25519LayoutOk data signer message = .ok () ↔
      message.length ≤ 65535 ∧ ∃ sig, sig.length = 64 ∧ data = canonical signer sig message := by
  constructor
  · intro h
    obtain ⟨hm,hl,hh,hk,hmsg⟩ := (ed25519LayoutOk_iff _ _ _).mp h
    refine ⟨hm,slice data 48 64,slice_length _ _ _ (by omega),?_⟩
    symm
    calc canonical signer (slice data 48 64) message
        = slice data 0 16 ++ slice data 16 32 ++ slice data 48 64 ++
            slice data 112 message.length := by rw [canonical_eq, hh, hk, hmsg]
      _ = slice data 0 (16+32+64+message.length) := by
          rw [slice_append_slice data 0 16 32, slice_append_slice data 0 48 64,
            slice_append_slice data 0 112]
      _ = data := slice_all _ _ (by omega)
  · rintro ⟨hm,sig,hs,rfl⟩
    exact ed25519LayoutOk_canonical signer sig message hs hm

/-- Fixed data is the instruction of one signer and one message. -/
theorem canonical_injective (signer signer' : Pubkey) (sig sig' msg msg' : Bytes)
    (hs : sig.length = 64) (hs' : sig'.length = 64)
    (h : canonical signer sig msg = canonical signer' sig' msg') :
    signer = signer' ∧ msg = msg' := by
  simp only [canonical_eq, List.append_assoc] at h
  obtain ⟨-,h⟩ := List.append_inj h (by simp [ed25519Header])
  obtain ⟨hk,h⟩ := List.append_inj h (by simp)
  obtain ⟨-,hmsg⟩ := List.append_inj h (by rw [hs, hs'])
  exact ⟨Pubkey.bytes_inj.mp hk,hmsg⟩

def ed25519LayoutOkIndexed (data : Bytes) (signer : Pubkey) (message : Bytes) :
    Except ProgramError Unit := do
  if 65535 < message.length then throw .invalidArgument
  let total ← Checked.addOr .invalidArgument 112 message.length
  if data.length ≠ total then throw .invalidArgument
  let head ← Checked.range data 0 16
  if head ≠ ed25519Header message.length then throw .invalidArgument
  let key ← Checked.range data 16 32
  if key ≠ signer.bytes then throw .invalidArgument
  let msg ← Checked.range data 112 message.length
  if msg ≠ message then throw .invalidArgument

theorem ed25519LayoutOkIndexed_eq (data : Bytes) (signer : Pubkey) (message : Bytes) :
    ed25519LayoutOkIndexed data signer message = ed25519LayoutOk data signer message := by
  unfold ed25519LayoutOkIndexed ed25519LayoutOk
  by_cases hm : 65535 < message.length
  · rw [if_pos hm, if_pos hm]
    rfl
  have ht : 112+message.length ≤ u64Max := by unfold u64Max; omega
  by_cases hl : data.length = 112+message.length
  · have h₀ : 0+16 ≤ data.length := by omega
    have h₁ : 16+32 ≤ data.length := by omega
    have h₂ : 112+message.length ≤ data.length := by omega
    simp only [hm, if_false, Checked.addOr_bind ht, Checked.range_bind h₀, Checked.range_bind h₁,
      Checked.range_bind h₂]
  · simp only [hm, if_false, Checked.addOr_bind ht, ne_eq, hl, not_false_eq_true, if_true]
    rfl

theorem ed25519LayoutOk_total (data : Bytes) (signer : Pubkey) (message : Bytes) :
    ed25519LayoutOk data signer message = .ok () ∨
      ed25519LayoutOk data signer message = .error .invalidArgument := by
  unfold ed25519LayoutOk
  simp only [bind, Except.bind, pure, Except.pure, throw, throwThe, MonadExceptOf.throw]
  split_ifs <;> simp

/-- The layout check accepts exactly the canonical instruction, never indexes
out of bounds, and accepts one signer and one message for given data. -/
theorem layout_accepts_canonical (data : Bytes) (signer : Pubkey) (message : Bytes) :
    (ed25519LayoutOk data signer message = .ok () ↔
      message.length ≤ 65535 ∧ ∃ sig, sig.length = 64 ∧ data = canonical signer sig message) ∧
    ed25519LayoutOkIndexed data signer message = ed25519LayoutOk data signer message ∧
    ed25519LayoutOkIndexed data signer message ≠ .error .panicked ∧
    ∀ signer' message', ed25519LayoutOk data signer message = .ok () →
      ed25519LayoutOk data signer' message' = .ok () → signer' = signer ∧ message' = message := by
  refine ⟨ed25519LayoutOk_iff_canonical _ _ _,ed25519LayoutOkIndexed_eq _ _ _,?_,?_⟩
  · rw [ed25519LayoutOkIndexed_eq]
    intro h
    cases ed25519LayoutOk_total data signer message with
    | inl hok => rw [hok] at h; cases h
    | inr hbad => rw [hbad] at h; cases h
  · intro signer' message' h h'
    obtain ⟨-,sig,hs,hd⟩ := (ed25519LayoutOk_iff_canonical _ _ _).mp h
    obtain ⟨-,sig',hs',hd'⟩ := (ed25519LayoutOk_iff_canonical _ _ _).mp h'
    exact canonical_injective _ _ _ _ _ _ hs' hs (hd'.symm.trans hd)

theorem signedBefore_verified (valid : Pubkey → Bytes → Bytes → Prop) (E : Env)
    (ixSysvar signer : Pubkey) (message : Bytes) (hn : NativeVerified valid E)
    (h : SignedBefore E ixSysvar signer message) : VerifiedBefore valid E signer message := by
  obtain ⟨-,hc,ed,hed,hprog,hlay⟩ := h
  refine ⟨hc,ed,hed,hprog,(layout_entry valid E.instructions _ _ _ hlay).mp ?_⟩
  apply hn (E.current-1) (by omega) ed hed hprog 0
  simp [layout_count _ _ _ hlay]

/-! ## The two messages -/

structure SealedOrder where
  bid : Bool
  give : Pubkey
  want : Pubkey
  terms : OrderTerms
  deriving DecidableEq

def SealedOrder.message (o : SealedOrder) : Bytes :=
  orderMessage (if o.bid then bidDomain else orderDomain) o.give o.want o.terms

structure OrderTerms.Sized (t : OrderTerms) : Prop where
  giveAmount : t.giveAmount < 256^8
  wantAmount : t.wantAmount < 256^8
  taker : t.taker.length = 32
  expiry : -(256^8 : ℤ) ≤ 2*t.expiry ∧ 2*t.expiry < 256^8
  nonce : t.nonce.length = 32

theorem orderTerms_sized (d : Bytes) (h : d.length = 90) : (orderTerms d).Sized where
  giveAmount := u64At_lt d 0
  wantAmount := u64At_lt d 8
  taker := slice_length d 16 32 (by omega)
  expiry := by
    have hb := intLe_bounds (slice d 48 8)
    rwa [slice_length d 48 8 (by omega)] at hb
  nonce := slice_length d 56 32 (by omega)

theorem message_length (o : SealedOrder) (ho : o.terms.Sized) :
    o.message.length = if o.bid then 167 else 169 := by
  cases hb : o.bid <;>
    simp [SealedOrder.message, orderMessage, hb, orderDomain, bidDomain, ho.taker, ho.nonce]

/-- Both formats have fixed widths, and domains of different lengths. -/
theorem message_injective (o p : SealedOrder) (ho : o.terms.Sized) (hp : p.terms.Sized)
    (h : o.message = p.message) : o = p := by
  unfold SealedOrder.message orderMessage at h
  obtain ⟨h,hpct⟩ := List.append_inj' h rfl
  obtain ⟨h,hmode⟩ := List.append_inj' h rfl
  obtain ⟨h,hnonce⟩ := List.append_inj' h (by rw [ho.nonce, hp.nonce])
  obtain ⟨h,hexpiry⟩ := List.append_inj' h (by simp)
  obtain ⟨h,htaker⟩ := List.append_inj' h (by rw [ho.taker, hp.taker])
  obtain ⟨h,hwantAmount⟩ := List.append_inj' h (by simp)
  obtain ⟨h,hwant⟩ := List.append_inj' h (by simp)
  obtain ⟨h,hgiveAmount⟩ := List.append_inj' h (by simp)
  obtain ⟨hdomain,hgive⟩ := List.append_inj' h (by simp)
  have e₁ := le_injective _ _ _ ho.giveAmount hp.giveAmount hgiveAmount
  have e₂ := le_injective _ _ _ ho.wantAmount hp.wantAmount hwantAmount
  have e₃ := leInt_injective _ _ _ ho.expiry hp.expiry hexpiry
  have e₄ : o.bid = p.bid := by
    cases hb : o.bid <;> cases hb' : p.bid <;> simp [hb, hb', orderDomain, bidDomain] at hdomain ⊢
  obtain ⟨bid,give,want,_,_,_,_,_,_,_⟩ := o
  obtain ⟨bid',give',want',_,_,_,_,_,_,_⟩ := p
  simp only [Pubkey.bytes_inj, List.cons.injEq, and_true] at *
  subst e₁ e₂ e₃ e₄ htaker hnonce hwant hgive hpct hmode
  rfl

/-! ## The settle instructions -/

def IsSettle (tag : UInt8) : Prop := tag ∈ ([38,39,40,41,42,43] : List UInt8)

def ixSysvarSlot (tag : UInt8) : ℕ := if tag = 38 then 14 else if tag = 39 then 20 else 12

def sealedOrder (tag : UInt8) (accounts : List AccountInfo) (d : Bytes) :
    Option (AccountInfo × AccountInfo × SealedOrder) :=
  if d.length = 90 then do
    let maker ← accounts[1]?
    let give ← accounts[2]?
    let want ← accounts[3]?
    let ixSysvar ← accounts[ixSysvarSlot tag]?
    return (maker,ixSysvar,⟨41 ≤ tag,give.key,want.key,orderTerms d⟩)
  else none

def PassesSignature (E : Env) (tag : UInt8) (d : Bytes) : Prop :=
  ∃ maker ixSysvar o, sealedOrder tag E.accounts d = some (maker,ixSysvar,o) ∧
    ∀ m, verifyEd25519Order E ixSysvar maker.key o.message m = .ok () m

theorem verifyEd25519Order_ok (E : Env) (ixSysvar : AccountInfo) (signer : Pubkey)
    (message : Bytes) (m : Machine) :
    verifyEd25519Order E ixSysvar signer message m = .ok () m ↔
      SignedBefore E ixSysvar.key signer message := by
  have h := wp_verifyEd25519Order (E := E) (m := m) (F := fun _ => False) ixSysvar signer message
    (Q := fun _ m' => m' = m)
  constructor
  · intro hx
    by_contra hn
    have := (wp_verifyEd25519Order (E := E) (m := m) (F := fun _ => True) ixSysvar signer message
      (Q := fun _ _ => False)).mpr ⟨fun h => (hn h).elim,fun _ => trivial⟩
    exact wp_ok this hx
  · intro hs
    obtain ⟨u,m',hx,rfl⟩ := wp_total (h.mpr ⟨fun _ => rfl,fun hn => hn hs⟩)
    exact hx

section
variable {E : Env} {m : Machine} {d : Bytes}

def ActsSigned (E : Env) (tag : UInt8) (d : Bytes) (x : Exec Unit) (m : Machine) : Prop :=
  wp x (fun _ _ => PassesSignature E tag d) (fun m' => m' = m ∨ PassesSignature E tag d) m

theorem wp_signed {tag : UInt8} {α : Type} (x : Exec α) {m' : Machine} {Q : α → Machine → Prop}
    (h : PassesSignature E tag d) (hQ : ∀ a s, PassesSignature E tag d → Q a s) :
    wp x Q (fun s => s = m ∨ PassesSignature E tag d) m' :=
  wp_of_forall (fun a s => hQ a s h) (fun _ => .inr h)

theorem passesSignature {tag : UInt8} {maker give want ixSysvar : AccountInfo}
    (hd : d.length = 90) (h₁ : E.accounts[1]? = some maker) (h₂ : E.accounts[2]? = some give)
    (h₃ : E.accounts[3]? = some want) (h₄ : E.accounts[ixSysvarSlot tag]? = some ixSysvar)
    (hs : SignedBefore E ixSysvar.key maker.key
      (SealedOrder.message ⟨41 ≤ tag,give.key,want.key,orderTerms d⟩)) :
    PassesSignature E tag d := by
  refine ⟨maker,ixSysvar,_,?_,fun m => (verifyEd25519Order_ok _ _ _ _ m).mpr hs⟩
  simp [sealedOrder, hd, h₁, h₂, h₃, h₄]

theorem settleSignedOrder_signed : ActsSigned E 38 d (settleSignedOrder E d) m := by
  simp [ActsSigned, settleSignedOrder]
  intro hd _ _ _
  split
  · rename_i ha
    simp
    intro _ _ _ _ _ hs
    have hp : PassesSignature E 38 d := passesSignature hd
      (by rw [take_getElem? 15 1 _ _ ha (by decide)]; rfl)
      (by rw [take_getElem? 15 2 _ _ ha (by decide)]; rfl)
      (by rw [take_getElem? 15 3 _ _ ha (by decide)]; rfl)
      (by rw [take_getElem? 15 _ _ _ ha (by decide)]; rfl) hs
    exact wp_signed _ hp fun _ _ _ => wp_signed _ hp fun _ _ h => h
  · simp

theorem settleSignedOrderPnft_signed : ActsSigned E 39 d (settleSignedOrderPnft E d) m := by
  simp [ActsSigned, settleSignedOrderPnft]
  intro hd _ _ _
  split
  · rename_i ha
    simp
    intro _ _ _ _ _ _ _ hs
    have hp : PassesSignature E 39 d := passesSignature hd
      (by rw [take_getElem? 24 1 _ _ ha (by decide)]; rfl)
      (by rw [take_getElem? 24 2 _ _ ha (by decide)]; rfl)
      (by rw [take_getElem? 24 3 _ _ ha (by decide)]; rfl)
      (by rw [take_getElem? 24 _ _ _ ha (by decide)]; rfl) hs
    exact wp_signed _ hp fun _ _ _ => wp_signed _ hp fun _ _ h => h
  · simp

theorem settleSignedOrderCore_signed : ActsSigned E 40 d (settleSignedOrderCore E d) m := by
  simp [ActsSigned, settleSignedOrderCore]
  intro hd _
  split
  · rename_i ha
    simp
    intro _ _ _ _ _ _ _ _ hs
    have hp : PassesSignature E 40 d := passesSignature hd
      (by rw [← splitCollection_getElem? 14 1 _ (by decide), ha]; rfl)
      (by rw [← splitCollection_getElem? 14 2 _ (by decide), ha]; rfl)
      (by rw [← splitCollection_getElem? 14 3 _ (by decide), ha]; rfl)
      (by rw [← splitCollection_getElem? 14 _ _ (by decide), ha]; rfl) hs
    exact wp_signed _ hp fun _ _ _ => wp_signed _ hp fun _ _ h => h
  · simp

/-- The gates of a bid let only a signed bid through. -/
theorem verifyBidCommon_signed (tag : UInt8) {ixSysvar maker taker orderAuth orderDone coins
    want : AccountInfo} {Q : UInt8 → Machine → Prop} (htag : 41 ≤ tag) (hd : d.length = 90)
    (h₁ : E.accounts[1]? = some maker) (h₂ : E.accounts[2]? = some coins)
    (h₃ : E.accounts[3]? = some want) (h₄ : E.accounts[ixSysvarSlot tag]? = some ixSysvar)
    (hQ : ∀ b s, PassesSignature E tag d → Q b s) :
    wp (verifyBidCommon E ixSysvar maker taker orderAuth orderDone coins.key want.key
      (orderTerms d))
      Q (fun m' => m' = m ∨ PassesSignature E tag d) m := by
  simp only [verifyBidCommon, wp_bind, wp_failIf, wp_verifyEd25519Order, true_or, implies_true,
    and_true]
  intro _ _ _ _ _ hs
  have hp : PassesSignature E tag d :=
    passesSignature hd h₁ h₂ h₃ h₄ (by simpa [SealedOrder.message, htag] using hs)
  exact wp_signed _ hp hQ

theorem settleSignedBidSpl_signed : ActsSigned E 41 d (settleSignedBidSpl E d) m := by
  simp [ActsSigned, settleSignedBidSpl]
  intro hd
  split
  · rename_i ha
    refine wp_seq (verifyBidCommon_signed 41 (by decide) hd (by rw [ha]; rfl)
      (by rw [ha]; rfl) (by rw [ha]; rfl) (by rw [ha]; rfl) fun _ _ hp => ?_)
    exact wp_signed _ hp fun _ _ h => h
  · simp

theorem settleSignedBidPnft_signed : ActsSigned E 42 d (settleSignedBidPnft E d) m := by
  simp [ActsSigned, settleSignedBidPnft]
  intro hd
  split
  · rename_i ha
    simp
    intro _
    refine verifyBidCommon_signed 42 (by decide) hd (by rw [ha]; rfl)
      (by rw [ha]; rfl) (by rw [ha]; rfl) (by rw [ha]; rfl) fun _ _ hp => ?_
    exact wp_signed _ hp fun _ _ h => h
  · simp

theorem settleSignedBidCore_signed : ActsSigned E 43 d (settleSignedBidCore E d) m := by
  simp [ActsSigned, settleSignedBidCore]
  intro hd
  split
  · rename_i ha
    simp
    intro _ _ _
    refine verifyBidCommon_signed 43 (by decide) hd
      (by rw [← splitCollection_getElem? 14 1 _ (by decide), ha]; rfl)
      (by rw [← splitCollection_getElem? 14 2 _ (by decide), ha]; rfl)
      (by rw [← splitCollection_getElem? 14 3 _ (by decide), ha]; rfl)
      (by rw [← splitCollection_getElem? 14 _ _ (by decide), ha]; rfl) fun _ _ hp => ?_
    exact wp_signed _ hp fun _ _ h => h
  · simp

theorem handler_signed {tag : UInt8} (ht : IsSettle tag) :
    ActsSigned E tag d (handler E tag d) m := by
  simp only [IsSettle, List.mem_cons, List.not_mem_nil, or_false] at ht
  rcases ht with rfl | rfl | rfl | rfl | rfl | rfl
  · exact settleSignedOrder_signed
  · exact settleSignedOrderPnft_signed
  · exact settleSignedOrderCore_signed
  · exact settleSignedBidSpl_signed
  · exact settleSignedBidPnft_signed
  · exact settleSignedBidCore_signed

end

theorem sealedOrder_sized {tag : UInt8} {accounts : List AccountInfo} {d : Bytes}
    {maker ixSysvar : AccountInfo} {o : SealedOrder}
    (h : sealedOrder tag accounts d = some (maker,ixSysvar,o)) : o.terms.Sized := by
  unfold sealedOrder at h
  split at h
  · rename_i hd
    simp only [Option.bind_eq_bind, Option.bind_eq_some_iff] at h
    obtain ⟨_,-,_,-,_,-,_,-,he⟩ := h
    cases he
    exact orderTerms_sized d hd
  · cases h

/-- A settle instruction that does anything, or that succeeds, is past the
signature check; past it, the native program verified, in the instruction just
before, the maker's signature over the message of the order; and no other order
of any settle instruction has that message. -/
theorem settle_signature_binds (valid : Pubkey → Bytes → Bytes → Prop) (E : Env) (tag : UInt8)
    (d : Bytes) (ht : IsSettle tag) (hn : NativeVerified valid E) :
    (∀ m, ActsSigned E tag d (handler E tag d) m) ∧
    (PassesSignature E tag d → ∃ maker ixSysvar o,
      sealedOrder tag E.accounts d = some (maker,ixSysvar,o) ∧
      VerifiedBefore valid E maker.key o.message ∧
      ∀ tag' accounts' d' maker' ixSysvar' o',
        sealedOrder tag' accounts' d' = some (maker',ixSysvar',o') →
        o'.message = o.message → o' = o) := by
  refine ⟨fun m => handler_signed ht,?_⟩
  rintro ⟨maker,ixSysvar,o,ho,hv⟩
  refine ⟨maker,ixSysvar,o,ho,?_,?_⟩
  · have hs := (verifyEd25519Order_ok E ixSysvar maker.key o.message ⟨fun _ => ⟨0,systemId,[]⟩,
      []⟩).mp (hv _)
    exact signedBefore_verified valid E _ _ _ hn hs
  · intro tag' accounts' d' maker' ixSysvar' o' ho' hm
    exact message_injective o' o (sealedOrder_sized ho') (sealedOrder_sized ho) hm

/-! A sell order, signed and settled. -/

theorem sampleKey_size (n : UInt8) : (n :: zeros 31).length = 32 := rfl

def sampleKey (n : UInt8) : Pubkey := ⟨n :: zeros 31,sampleKey_size n⟩

def sampleTerms : Bytes := le 8 5 ++ le 8 7 ++ zeros 32 ++ leInt 8 100 ++ zeros 32 ++ [0,0]

def sampleOrder : SealedOrder := ⟨false,sampleKey 3,sampleKey 4,orderTerms sampleTerms⟩

def sampleSig : Bytes := List.replicate 64 7

def sampleData : Bytes :=
  ed25519Header sampleOrder.message.length ++ (sampleKey 2).bytes ++ sampleSig ++
    sampleOrder.message

def sampleEnv : Env where
  host := ⟨sampleKey 9,fun _ _ => none,fun _ => zeroKey,fun _ => 1,fun _ _ => none⟩
  accounts := ([1,2,3,4,5,6,7,8,10,11,12,13,14,15].map fun n => ⟨sampleKey n,n = 1,true⟩) ++
    [⟨sysvarInstructionsId,false,false⟩]
  clock := 50
  instructions := [⟨ed25519Program,sampleData⟩,⟨sampleKey 9,38 :: sampleTerms⟩]
  current := 1

theorem sampleData_layout :
    ed25519LayoutOk sampleData (sampleKey 2) sampleOrder.message = .ok () :=
  ed25519LayoutOk_canonical _ _ _ List.length_replicate
    (by rw [message_length _ (orderTerms_sized _ rfl)]; decide)

theorem settle_signature_binds_sell :
    ∃ maker ixSysvar o, sealedOrder 38 sampleEnv.accounts sampleTerms = some (maker,ixSysvar,o) ∧
      VerifiedBefore (fun k sig msg => k = sampleKey 2 ∧ sig = sampleSig ∧
        msg = sampleOrder.message) sampleEnv maker.key o.message ∧
      ∀ tag' accounts' d' maker' ixSysvar' o',
        sealedOrder tag' accounts' d' = some (maker',ixSysvar',o') →
        o'.message = o.message → o' = o := by
  refine (settle_signature_binds (fun k sig msg => k = sampleKey 2 ∧ sig = sampleSig ∧
    msg = sampleOrder.message) sampleEnv 38 sampleTerms (by simp [IsSettle]) ?_).2 ?_
  · intro j hj ed hed _ i hi
    obtain rfl : j = 0 := by simpa [sampleEnv] using hj
    cases hed
    rw [layout_count _ _ _ sampleData_layout] at hi
    obtain rfl : i = 0 := by simpa using hi
    rw [layout_entry _ _ _ _ _ sampleData_layout]
    have hs : sampleSig.length = 64 := List.length_replicate
    exact ⟨rfl,canonical_sig _ _ _ hs,rfl⟩
  · refine ⟨_,_,sampleOrder,rfl,fun m => ?_⟩
    exact (verifyEd25519Order_ok _ _ _ _ _).mpr ⟨rfl,by decide,_,rfl,rfl,sampleData_layout⟩

end Xete.Swap
