import XetePrograms.Swap.ListingTrace
import XetePrograms.Swap.OfferTerms
import XetePrograms.Swap.Sdk

/-!
# The records and what they read back as

Every record is written as a list of fields that do not meet, so each field
reads back as it was written.
-/

set_option autoImplicit false

namespace Xete.Swap
open Xete.Octets Xete.Weakest Xete.Chain Xete.Token Xete.Runtime Xete.Rules

/-! ## Reading a field -/

section
variable {n : ℕ} {fields : List (ℕ × Bytes)} (h : WellPlaced n fields)
include h

theorem placed_slice (off len : ℕ) (b : Bytes) (hb : b.length = len) (hf : (off,b) ∈ fields) :
    slice (patches (zeros n) fields) off len = b := by
  subst hb
  exact slice_patches _ _ (by rwa [zeros_length]) (off,b) hf

theorem placed_key (off : ℕ) (k : Pubkey) (hf : (off,k.bytes) ∈ fields) :
    keyAt (patches (zeros n) fields) off = k :=
  keyAt_eq _ _ _ (placed_slice h off 32 k.bytes (by simp) hf)

theorem placed_u64 (off v : ℕ) (hv : v ≤ u64Max) (hf : (off,le 8 v) ∈ fields) :
    u64At (patches (zeros n) fields) off = v := by
  rw [u64At, placed_slice h off 8 (le 8 v) (by simp) hf]
  exact natLe_le 8 v (by simp only [u64Max] at hv; omega)

theorem placed_i64 (off : ℕ) (z : ℤ) (hlo : -(256^8 : ℤ) ≤ 2*z) (hhi : 2*z < 256^8)
    (hf : (off,leInt 8 z) ∈ fields) : i64At (patches (zeros n) fields) off = z := by
  rw [i64At, placed_slice h off 8 (leInt 8 z) (by simp) hf]
  exact intLe_leInt 8 z hlo hhi

theorem placed_byte (off : ℕ) (b : UInt8) (hf : (off,[b]) ∈ fields) :
    byteAt (patches (zeros n) fields) off = b := by
  rw [byteAt_eq_slice, placed_slice h off 1 [b] rfl hf]
  rfl

theorem placed_length : (patches (zeros n) fields).length = n := by
  rw [patches_length _ _ (by rw [zeros_length]; exact h.1), zeros_length]

end

/-! ## Swaps and listings -/

structure SwapView where
  maker : Pubkey
  giveMint : Pubkey
  giveAmount : ℕ
  wantMint : Pubkey
  wantAmount : ℕ
  taker : Pubkey
  terms : Bytes
  expiry : ℤ
  status : UInt8
  bump : UInt8
  nonce : Bytes
  royaltyMode : UInt8
  makerPct : UInt8
  deriving DecidableEq

def swapView (b : Bytes) : SwapView where
  maker := keyAt b sMaker
  giveMint := keyAt b sGiveMint
  giveAmount := u64At b sGiveAmt
  wantMint := keyAt b sWantMint
  wantAmount := u64At b sWantAmt
  taker := keyAt b sTaker
  terms := slice b sTerms 32
  expiry := i64At b sExpiry
  status := byteAt b sStatus
  bump := byteAt b sBump
  nonce := slice b sNonce 32
  royaltyMode := byteAt b sRoyaltyMode
  makerPct := byteAt b sMakerPct

/-- The terms that a caller passes in the data `d`, for `giveAmount` of the give
mint and the royalty stance `mode`, `pct`. -/
def postedTerms (maker giveMint : Pubkey) (giveAmount : ℕ) (wantMint : Pubkey) (d : Bytes)
    (bump mode pct : UInt8) : SwapView where
  maker := maker
  giveMint := giveMint
  giveAmount := giveAmount
  wantMint := wantMint
  wantAmount := u64At d 40
  taker := keyAt d 88
  terms := slice d 48 32
  expiry := i64At d 80
  status := statusOpen
  bump := bump
  nonce := slice d 0 32
  royaltyMode := mode
  makerPct := pct

section
variable {maker giveMint wantMint : Pubkey} {d : Bytes} {bump : UInt8} {giveAmount : ℕ}

theorem listingFields_placed (mode pct : UInt8) (wantAmount : ℕ) (taker terms nonce : Bytes)
    (expiry : ℤ) (ht : taker.length = 32) (hm : terms.length = 32) (hn : nonce.length = 32) :
    WellPlaced swapLen (listingFields maker giveMint giveAmount mode pct wantMint wantAmount
      taker terms expiry bump nonce) := by
  simp [WellPlaced, listingFields, sMaker, sGiveMint, sGiveAmt, sRoyaltyMode, sMakerPct, sWantMint,
    sWantAmt, sTaker, sTerms, sExpiry, sStatus, sBump, sNonce, swapLen, ht, hm, hn]

theorem swapFields_placed (wantAmount : ℕ) (taker terms nonce : Bytes) (expiry : ℤ)
    (ht : taker.length = 32) (hm : terms.length = 32) (hn : nonce.length = 32) :
    WellPlaced swapLen (swapFields maker giveMint giveAmount wantMint wantAmount taker terms expiry
      bump nonce) := by
  simp [WellPlaced, swapFields, sMaker, sGiveMint, sGiveAmt, sWantMint, sWantAmt, sTaker, sTerms,
    sExpiry, sStatus, sBump, sNonce, swapLen, ht, hm, hn]

theorem listingRecord_placed (hd : 120 ≤ d.length) :
    WellPlaced swapLen (listingFields maker giveMint giveAmount (byteAt d 120) (byteAt d 121)
      wantMint (u64At d 40) (slice d 88 32) (slice d 48 32) (i64At d 80) bump (slice d 0 32)) :=
  listingFields_placed _ _ _ _ _ _ _ (slice_length _ _ _ (by omega)) (slice_length _ _ _ (by omega))
    (slice_length _ _ _ (by omega))

theorem swapRecord_placed (hd : 120 ≤ d.length) :
    WellPlaced swapLen (swapFields maker giveMint giveAmount wantMint (u64At d 40) (slice d 88 32)
      (slice d 48 32) (i64At d 80) bump (slice d 0 32)) :=
  swapFields_placed _ _ _ _ _ (slice_length _ _ _ (by omega)) (slice_length _ _ _ (by omega))
    (slice_length _ _ _ (by omega))

theorem listingRecord_length (hd : 120 ≤ d.length) :
    (listingRecord maker giveMint wantMint d bump).length = swapLen :=
  placed_length (listingRecord_placed hd)

theorem swapRecord_length (hd : 120 ≤ d.length) :
    (swapRecord maker giveMint giveAmount wantMint d bump).length = swapLen :=
  placed_length (swapRecord_placed hd)

theorem taker_read {b : Bytes} (hd : 120 ≤ d.length) (h : slice b sTaker 32 = slice d 88 32) :
    keyAt b sTaker = keyAt d 88 := by
  apply keyAt_eq
  rw [h, keyAt_bytes _ _ (by omega)]

/-- A listing with a royalty stance reads back as its terms. -/
theorem listingRecord_view (hd : 120 ≤ d.length) :
    swapView (listingRecord maker giveMint wantMint d bump) =
      postedTerms maker giveMint (u64At d 32) wantMint d bump (byteAt d 120) (byteAt d 121) := by
  have h : WellPlaced swapLen (listingFields maker giveMint (u64At d 32) (byteAt d 120)
    (byteAt d 121)
    wantMint (u64At d 40) (slice d 88 32) (slice d 48 32) (i64At d 80) bump (slice d 0 32)) :=
    listingRecord_placed hd
  obtain ⟨hlo,hhi⟩ := i64At_bounds d 80
  simp only [swapView, postedTerms, SwapView.mk.injEq, listingRecord]
  refine ⟨?_,?_,?_,?_,?_,?_,?_,?_,?_,?_,?_,?_,?_⟩
  · exact placed_key h _ _ (by simp [listingFields])
  · exact placed_key h _ _ (by simp [listingFields])
  · exact placed_u64 h _ _ (u64At_le _ _) (by simp [listingFields])
  · exact placed_key h _ _ (by simp [listingFields])
  · exact placed_u64 h _ _ (u64At_le _ _) (by simp [listingFields])
  · exact taker_read hd (placed_slice h _ _ _ (slice_length _ _ _ (by omega))
      (by simp [listingFields]))
  · exact placed_slice h _ _ _ (slice_length _ _ _ (by omega)) (by simp [listingFields])
  · exact placed_i64 h _ _ hlo hhi (by simp [listingFields])
  · exact placed_byte h _ _ (by simp [listingFields])
  · exact placed_byte h _ _ (by simp [listingFields])
  · exact placed_slice h _ _ _ (slice_length _ _ _ (by omega)) (by simp [listingFields])
  · exact placed_byte h _ _ (by simp [listingFields])
  · exact placed_byte h _ _ (by simp [listingFields])

/-- A swap, and a Core listing, reads back as its terms without a royalty. -/
theorem swapRecord_view (hd : 120 ≤ d.length) (hg : giveAmount ≤ u64Max) :
    swapView (swapRecord maker giveMint giveAmount wantMint d bump) =
      postedTerms maker giveMint giveAmount wantMint d bump royaltyNone 0 := by
  have h : WellPlaced swapLen (swapFields maker giveMint giveAmount wantMint (u64At d 40)
    (slice d 88 32) (slice d 48 32) (i64At d 80) bump (slice d 0 32)) := swapRecord_placed hd
  obtain ⟨hlo,hhi⟩ := i64At_bounds d 80
  have hrest : ∀ i, sRoyaltyMode ≤ i → i < swapLen →
      byteAt (swapRecord maker giveMint giveAmount wantMint d bump) i = 0 := by
    intro i hi hl
    have h₁ : (slice d 88 32).length = 32 := slice_length _ _ _ (by omega)
    have h₂ : (slice d 48 32).length = 32 := slice_length _ _ _ (by omega)
    have h₃ : (slice d 0 32).length = 32 := slice_length _ _ _ (by omega)
    rw [byteAt_eq_slice, swapRecord,
      slice_patches_disjoint _ _ _ _ (by rw [zeros_length]; exact h.1),
      slice_zeros _ _ _ (by omega)]
    · rfl
    · simp only [sRoyaltyMode] at hi
      simp [swapFields, sMaker, sGiveMint, sGiveAmt, sWantMint, sWantAmt, sTaker, sTerms, sExpiry,
        sStatus, sBump, sNonce, h₁, h₂, h₃]
      omega
  simp only [swapView, postedTerms, SwapView.mk.injEq, swapRecord]
  refine ⟨?_,?_,?_,?_,?_,?_,?_,?_,?_,?_,?_,?_,?_⟩
  · exact placed_key h _ _ (by simp [swapFields])
  · exact placed_key h _ _ (by simp [swapFields])
  · exact placed_u64 h _ _ hg (by simp [swapFields])
  · exact placed_key h _ _ (by simp [swapFields])
  · exact placed_u64 h _ _ (u64At_le _ _) (by simp [swapFields])
  · exact taker_read hd (placed_slice h _ _ _ (slice_length _ _ _ (by omega))
      (by simp [swapFields]))
  · exact placed_slice h _ _ _ (slice_length _ _ _ (by omega)) (by simp [swapFields])
  · exact placed_i64 h _ _ hlo hhi (by simp [swapFields])
  · exact placed_byte h _ _ (by simp [swapFields])
  · exact placed_byte h _ _ (by simp [swapFields])
  · exact placed_slice h _ _ _ (slice_length _ _ _ (by omega)) (by simp [swapFields])
  · exact hrest _ (by decide) (by decide)
  · exact hrest _ (by decide) (by decide)

end

/-! ## Offers -/

structure OfferView where
  offerer : Pubkey
  swap : Pubkey
  wantMint : Pubkey
  wantAmount : ℕ
  giveMint : Pubkey
  giveAmount : ℕ
  expiry : ℤ
  status : UInt8
  bump : UInt8
  nonce : Bytes
  deriving DecidableEq

def offerView (b : Bytes) : OfferView where
  offerer := keyAt b oOfferer
  swap := keyAt b oSwap
  wantMint := keyAt b oWantMint
  wantAmount := u64At b oWantAmt
  giveMint := keyAt b oGiveMint
  giveAmount := u64At b oGiveAmt
  expiry := i64At b oExpiry
  status := byteAt b oStatus
  bump := byteAt b oBump
  nonce := slice b oNonce 32

def offeredTerms (k : OfferKeys) (s d : Bytes) (bump : UInt8) : OfferView where
  offerer := k.offerer
  swap := k.swap
  wantMint := k.wantMint
  wantAmount := u64At d 32
  giveMint := keyAt s sGiveMint
  giveAmount := u64At s sGiveAmt
  expiry := i64At d 40
  status := statusOpen
  bump := bump
  nonce := slice d 0 32

theorem offerRecord_view (k : OfferKeys) (s d : Bytes) (bump : UInt8) (hd : d.length = 48) :
    offerView (offerRecord k s d bump) = offeredTerms k s d bump := by
  have h : WellPlaced offerLen _ := offerFields_placed k.offerer k.swap k.wantMint
    (keyAt s sGiveMint) (u64At d 32) (u64At s sGiveAmt) (i64At d 40) bump (slice d 0 32)
    (slice_length _ _ _ (by omega))
  obtain ⟨hlo,hhi⟩ := i64At_bounds d 40
  simp only [offerView, offeredTerms, OfferView.mk.injEq, offerRecord]
  refine ⟨?_,?_,?_,?_,?_,?_,?_,?_,?_,?_⟩
  · exact placed_key h _ _ (by simp [offerFields])
  · exact placed_key h _ _ (by simp [offerFields])
  · exact placed_key h _ _ (by simp [offerFields])
  · exact placed_u64 h _ _ (u64At_le _ _) (by simp [offerFields])
  · exact placed_key h _ _ (by simp [offerFields])
  · exact placed_u64 h _ _ (u64At_le _ _) (by simp [offerFields])
  · exact placed_i64 h _ _ hlo hhi (by simp [offerFields])
  · exact placed_byte h _ _ (by simp [offerFields])
  · exact placed_byte h _ _ (by simp [offerFields])
  · exact placed_slice h _ _ _ (slice_length _ _ _ (by omega)) (by simp [offerFields])

theorem offerRecord_length (k : OfferKeys) (s d : Bytes) (bump : UInt8) (hd : d.length = 48) :
    (offerRecord k s d bump).length = offerLen :=
  placed_length (offerFields_placed k.offerer k.swap k.wantMint (keyAt s sGiveMint) (u64At d 32)
    (u64At s sGiveAmt) (i64At d 40) bump (slice d 0 32) (slice_length _ _ _ (by omega)))

/-! ## The event -/

theorem postCreated_placed (kind : UInt8) (maker post give want : Pubkey)
    (giveAmount wantAmount : ℕ) (expiry : ℤ) (nonce : Bytes) (hn : nonce.length = 32) :
    WellPlaced postCreatedLen
      [(0,discPostCreated),(8,magic),(12,[schemaVersion]),(13,[kind]),(14,maker.bytes),
        (46,post.bytes),(78,give.bytes),(110,want.bytes),(142,le 8 giveAmount),
        (150,le 8 wantAmount),
        (158,leInt 8 expiry),(166,nonce)] := by
  simp [WellPlaced, discPostCreated, magic, postCreatedLen, hn]

/-- The event decodes at the documented offsets to what was encoded. -/
theorem encodePostCreated_decodes (kind : UInt8) (maker post give want : Pubkey)
    {giveAmount wantAmount : ℕ} {expiry : ℤ} {nonce : Bytes} (hg : giveAmount ≤ u64Max)
    (hw : wantAmount ≤ u64Max) (hlo : -(256^8 : ℤ) ≤ 2*expiry) (hhi : 2*expiry < 256^8)
    (hn : nonce.length = 32) :
    Sdk.postCreatedFrom
      (encodePostCreated kind maker post give want giveAmount wantAmount expiry nonce) =
      some ⟨discPostCreated,magic,schemaVersion,kind,maker,post,give,want,giveAmount,wantAmount,
        expiry,nonce⟩ := by
  have h := postCreated_placed kind maker post give want giveAmount wantAmount expiry nonce hn
  have hl : (encodePostCreated kind maker post give want giveAmount wantAmount expiry
    nonce).length =
      198 := placed_length h
  rw [Sdk.postCreatedFrom, if_pos hl, encodePostCreated]
  simp only [Option.some.injEq, Sdk.PostCreated.mk.injEq]
  refine ⟨?_,?_,?_,?_,?_,?_,?_,?_,?_,?_,?_,?_⟩
  · exact placed_slice h 0 8 _ rfl (by simp)
  · exact placed_slice h 8 4 _ rfl (by simp)
  · exact placed_byte h 12 _ (by simp)
  · exact placed_byte h 13 _ (by simp)
  · exact placed_key h 14 _ (by simp)
  · exact placed_key h 46 _ (by simp)
  · exact placed_key h 78 _ (by simp)
  · exact placed_key h 110 _ (by simp)
  · exact placed_u64 h 142 _ hg (by simp)
  · exact placed_u64 h 150 _ hw (by simp)
  · exact placed_i64 h 158 _ hlo hhi (by simp)
  · exact placed_slice h 166 32 _ hn (by simp)

end Xete.Swap
