import XetePrograms.Swap.OfferTrace
import XetePrograms.Swap.RoyaltyTrace

/-!
# The acts of the swap instructions
-/

set_option autoImplicit false

namespace Xete.Swap
open Xete.Octets Xete.Weakest Xete.Chain Xete.Token Xete.Runtime Xete.Rules

variable {E : Env} {m m' : Machine} {d : Bytes}

/-! ## Opening -/

def swapRecord (maker giveMint : Pubkey) (giveAmount : ℕ) (wantMint : Pubkey) (d : Bytes)
    (bump : UInt8) : Bytes :=
  patches (zeros swapLen) (swapFields maker giveMint giveAmount wantMint (u64At d 40)
    (slice d 88 32) (slice d 48 32) (i64At d 80) bump (slice d 0 32))

def openedEvent (kind : UInt8) (maker swap giveMint : Pubkey) (giveAmount : ℕ) (wantMint : Pubkey)
    (d : Bytes) : Bytes :=
  encodePostCreated kind maker swap giveMint wantMint giveAmount (u64At d 40) (i64At d 80)
    (slice d 0 32)

structure SwapKeys where
  maker : Pubkey
  swap : Pubkey
  vault : Pubkey
  giveMint : Pubkey
  wantMint : Pubkey
  makerGive : Pubkey
  tokenProg : Pubkey

def openSwapActs (E : Env) (k : SwapKeys) (d : Bytes) (bump vbump dec : UInt8) : List Act :=
  [createAct E k.maker k.swap swapLen E.programId (bumped (swapSeeds k.maker (slice d 0 32)) bump),
    .log (openedEvent kindSwap k.maker k.swap k.giveMint (u64At d 32) k.wantMint d),
    createAct E k.maker k.vault tokenAcctLen k.tokenProg
      (bumped (vaultSeeds k.maker (slice d 0 32)) vbump),
    initAct k.tokenProg k.vault k.giveMint k.swap,
    transferAct k.tokenProg k.makerGive k.giveMint k.vault k.maker (u64At d 32) dec none,
    .write k.swap (swapRecord k.maker k.giveMint (u64At d 32) k.wantMint d bump)]

structure FreshSlot (E : Env) (d : Bytes) (m : Machine) (maker swap : Pubkey) (bump : UInt8) :
    Prop where
  slot : SlotIs E 1 swap
  first : SlotIs E 0 maker
  length : d.length = 120
  signed : E.signed maker
  wanted : u64At d 40 ≠ 0
  live : E.clock < i64At d 80
  address : E.host.findProgramAddress (swapSeeds maker (slice d 0 32)) E.programId =
    some (swap,bump)

structure OpenedSwap (E : Env) (d : Bytes) (m m' : Machine) (k : SwapKeys)
    (bump vbump dec : UInt8) : Prop where
  slot : FreshSlot E d m k.maker k.swap bump
  mints : SlotIs E 3 k.giveMint ∧ SlotIs E 4 k.wantMint
  positive : u64At d 32 ≠ 0
  vault : E.host.findProgramAddress (vaultSeeds k.maker (slice d 0 32)) E.programId =
    some (k.vault,vbump)
  tokenProg : IsTokenProgram k.tokenProg
  did : Did E (openSwapActs E k d bump vbump dec) m m'

theorem openSwap_did (hs : SystemRules E.host) (hw : Wellformed E) (hf : Confined E.host) :
    wp (openSwap E d) (fun _ m' => ∃ k bump vbump dec,
      OpenedSwap E d m m' k bump vbump dec) (fun _ => True) m := by
  simp [openSwap]
  intro hl
  split
  · rename_i maker swap vault giveMint wantMint makerGive tokenProg system config aliasAcct ha
    simp [createPda, tokenInit, tokenTransfer, emitPostCreated]
    intro hsign hg hwant hexp _ swapPda bump hswap he vaultPda vbump hvault he'
    subst he he'
    intro s₁ h₁ s₂ h₂ htp _ s₃ h₃ s₄ h₄ dec _ s₅ h₅ s₆ h₆
    have hd : Did E [createAct E maker.key swap.key swapLen E.programId
        (bumped (swapSeeds maker.key (slice d 0 32)) bump),.log _,
      createAct E maker.key vault.key tokenAcctLen tokenProg.key
        (bumped (vaultSeeds maker.key (slice d 0 32)) vbump),
      initAct tokenProg.key vault.key giveMint.key swap.key,
      transferAct tokenProg.key makerGive.key giveMint.key vault.key maker.key (u64At d 32) dec
        none] m _ := ⟨s₁,h₁,s₂,h₂,s₃,h₃,s₄,h₄,s₅,h₅,rfl⟩
    have hz : (s₅ swap.key).data = zeros swapLen :=
      created_data hs hw hf hd (by simp [createAct, initAct, transferAct])
    rw [hz] at h₆ ⊢
    refine ⟨⟨maker.key,swap.key,vault.key,giveMint.key,wantMint.key,makerGive.key,tokenProg.key⟩,
      bump,vbump,dec,?_⟩
    exact
      { slot := ⟨by simp [SlotIs, ha],by simp [SlotIs, ha],hl,⟨maker,by simp [ha],rfl,hsign⟩,hwant,
      hexp, hswap⟩
        mints := by simp [SlotIs, ha]
        positive := hg
        vault := hvault
        tokenProg := htp
        did := ⟨s₁,h₁,s₂,h₂,s₃,h₃,s₄,h₄,s₅,h₅,s₆,h₆,rfl⟩ }
  · trivial

/-! ## Filling -/

structure VaultKeys where
  vault : Pubkey
  takerGive : Pubkey
  giveTokenProg : Pubkey

def fillActs (k : RecordKeys) (v : VaultKeys) (s nonce : Bytes) (giveDec : UInt8) : List Act :=
  [transferAct v.giveTokenProg v.vault k.giveMint v.takerGive k.record (u64At s sGiveAmt) giveDec
      (some (swapSigner k.maker s nonce)),
    closeAct v.giveTokenProg v.vault k.maker k.record (swapSigner k.maker s nonce),
    .close k.record k.maker]

structure FilledSwap (E : Env) (d : Bytes) (m m₁ m' : Machine) (k : RecordKeys) (v : VaultKeys)
    (giveDec wantDec : UInt8) : Prop extends PaidRecord E d m m₁ k (plainPayment wantDec) where
  address : E.host.createProgramAddress (swapSigner k.maker (m.ledger k.record).data (slice d 0 32))
    E.programId = some k.record
  vault : ∃ b, E.host.findProgramAddress (vaultSeeds k.maker (slice d 0 32)) E.programId =
    some (v.vault,b)
  giveTokenProg : IsTokenProgram v.giveTokenProg
  giveOwner : (m.ledger k.giveMint).owner = v.giveTokenProg
  did : Did E (fillActs k v (m.ledger k.record).data (slice d 0 32) giveDec) m₁ m'

theorem fill_did : wp (fill E d) (fun _ m' => ∃ m₁ k v giveDec wantDec,
    FilledSwap E d m m₁ m' k v giveDec wantDec) (fun _ => True) m := by
  simp [fill]
  intro hl hlen
  split
  · rename_i taker swap vault maker giveMint wantMint takerWant takerGive makerWant tokenProg config
      feeAta ha
    have hslot : E.accounts[1]? = some swap := take_getElem? 12 1 _ _ ha (by decide)
    have hmem : taker ∈ E.accounts := List.mem_of_mem_take (i := 12) (by rw [ha]; simp)
    simp
    rintro hsign ho hfill hamt hmax hmk
    rw [← hmk]
    rintro addr haddr rfl vaultPda bv hv rfl hmw giveDec _ wantDec _ htp hown hgtp hgown
    refine wp_mono (payWantLeg_paid giveMint.key wantDec _ hmax) ?_ (fun _ _ => trivial)
    rintro _ m₁ hpaid
    simp [tokenTransfer, tokenClose]
    intro s₁ h₁ s₂ h₂ s₃ h₃
    refine ⟨m₁,⟨⟨config.key,tokenProg.key,takerWant.key,wantMint.key,feeAta.key,makerWant.key,
      taker.key,giveMint.key⟩,swap.key,maker.key⟩,
      ⟨vault.key,takerGive.key,(E.accounts[12]?.getD tokenProg).key⟩,giveDec,wantDec,?_⟩
    exact
      { slot := .of_getElem hslot
        length := hl
        owner := ho
        signed := ⟨taker,hmem,rfl,hsign⟩
        fillable := hfill
        amount := hamt
        maker := hmk.symm
        makerWant := hmw
        tokenProg := htp
        wantOwner := hown
        paid := hpaid
        address := haddr
        vault := ⟨bv,hv⟩
        giveTokenProg := hgtp
        giveOwner := hgown
        did := ⟨s₁,h₁,s₂,h₂,s₃,h₃,rfl⟩ }
  · trivial

/-! ## Refunding -/

structure SwapRefundKeys where
  maker : Pubkey
  swap : Pubkey
  vault : Pubkey
  giveMint : Pubkey
  makerGive : Pubkey
  tokenProg : Pubkey

def refundSwapActs (k : SwapRefundKeys) (s nonce : Bytes) (dec : UInt8) : List Act :=
  [transferAct k.tokenProg k.vault k.giveMint k.makerGive k.swap (u64At s sGiveAmt) dec
      (some (swapSigner k.maker s nonce)),
    closeAct k.tokenProg k.vault k.maker k.swap (swapSigner k.maker s nonce),
    .close k.swap k.maker]

structure RefundedSwap (E : Env) (nonce : Bytes) (m m' : Machine) (k : SwapRefundKeys)
    (mintIdx tokenIdx : ℕ) (pre : List Act) (dec : UInt8) : Prop where
  slot : SlotIs E 1 k.swap
  mintSlot : SlotIs E mintIdx k.giveMint
  tokenSlot : SlotIs E tokenIdx k.tokenProg
  isSwap : IsSwap E m.ledger k.swap
  maker : keyAt (m.ledger k.swap).data sMaker = k.maker
  giveMint : keyAt (m.ledger k.swap).data sGiveMint = k.giveMint
  makerGive : ∃ m₁, Did E pre m m₁ ∧ BelongsTo m₁.ledger k.makerGive k.giveMint k.maker
  address : E.host.createProgramAddress (swapSigner k.maker (m.ledger k.swap).data nonce)
    E.programId = some k.swap
  vault : ∃ b, E.host.findProgramAddress (vaultSeeds k.maker nonce) E.programId = some (k.vault,b)
  did : Did E (pre ++ refundSwapActs k (m.ledger k.swap).data nonce dec) m m'

theorem refundAndClose_did {swap vault maker giveMint makerGive tokenProg : AccountInfo}
    {pre : List Act} {m₀ : Machine} (mintIdx tokenIdx : ℕ) (nonce : Bytes)
    (h₀ : E.accounts[1]? = some swap) (hm : E.accounts[mintIdx]? = some giveMint)
    (ht : E.accounts[tokenIdx]? = some tokenProg) (hs : IsSwap E m₀.ledger swap.key)
    (hmk : keyAt (m₀.ledger swap.key).data sMaker = maker.key)
    (hg : keyAt (m₀.ledger swap.key).data sGiveMint = giveMint.key) (hp : Did E pre m₀ m) :
    wp (refundAndClose E swap vault maker giveMint makerGive tokenProg nonce
        (byteAt (m₀.ledger swap.key).data sBump) (u64At (m₀.ledger swap.key).data sGiveAmt))
      (fun _ m' => ∃ dec, RefundedSwap E nonce m₀ m'
        ⟨maker.key,swap.key,vault.key,giveMint.key,makerGive.key,tokenProg.key⟩ mintIdx tokenIdx pre
        dec)
      (fun _ => True) m := by
  simp [refundAndClose, tokenTransfer, tokenClose]
  intro hbel addr haddr
  rintro rfl vaultPda bv hv rfl dec _ s₁ h₁ s₂ h₂ s₃ h₃
  exact ⟨dec,
    { slot := .of_getElem h₀
      mintSlot := .of_getElem hm
      tokenSlot := .of_getElem ht
      isSwap := hs
      maker := hmk
      giveMint := hg
      makerGive := ⟨m,hp,hbel⟩
      address := haddr
      vault := ⟨bv,hv⟩
      did := (did_append _ _ m₀ _).mpr ⟨m,hp,s₁,h₁,s₂,h₂,s₃,h₃,rfl⟩ }⟩

theorem cancelSwap_did : wp (cancelSwap E d) (fun _ m' => d.length = 32 ∧ ∃ k, E.signed k.maker ∧
    ∃ feeWallet fee dec, RefundedSwap E d m m' k 3 5 (delistActs k.maker feeWallet fee) dec)
      (fun _ => True) m := by
  simp [cancelSwap]
  intro hl
  split
  · rename_i maker swap vault giveMint makerGive tokenProg config feeWallet system ha
    simp
    intro hsign ho hlen hst hmk hg
    rw [slice_all _ _ hl]
    refine wp_mono (payDelistFee_did _ _) ?_ (fun _ _ => trivial)
    rintro _ m₁ h₁
    refine wp_mono (refundAndClose_did 3 5 d (by rw [ha]; rfl) (by rw [ha]; rfl) (by rw [ha]; rfl)
      ⟨ho,hlen,hst⟩ hmk hg h₁) ?_ (fun _ _ => trivial)
    rintro _ m' ⟨dec,h⟩
    exact ⟨hl,_,⟨maker,by simp [ha],rfl,hsign⟩,feeWallet.key,_,dec,h⟩
  · trivial

theorem expire_did : wp (expire E d) (fun _ m' => d.length = 32 ∧ ∃ k,
    i64At (m.ledger k.swap).data sExpiry ≤ E.clock ∧ ∃ dec, RefundedSwap E d m m' k 4 6 [] dec)
      (fun _ => True) m := by
  simp [expire]
  intro hl
  split
  · rename_i caller swap vault maker giveMint makerGive tokenProg ha
    simp
    intro ho hlen hst hg hexp hmk
    rw [slice_all _ _ hl]
    refine wp_mono (refundAndClose_did 4 6 d (by rw [ha]; rfl) (by rw [ha]; rfl) (by rw [ha]; rfl)
      ⟨ho,hlen,hst⟩ hmk.symm hg ((did_nil m m).mpr rfl)) ?_ (fun _ _ => trivial)
    rintro _ m' ⟨dec,h⟩
    exact ⟨hl,_,hexp,dec,h⟩
  · trivial

end Xete.Swap
