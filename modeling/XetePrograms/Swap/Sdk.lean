import XetePrograms.Swap.State

/-!
# The readers outside the program

The decoders of the Python client and of the event documentation, with their
own copies of the offsets.
-/

set_option autoImplicit false

namespace Xete.Sdk
open Xete.Octets Xete.Chain

/-! ## Records, as `xete_swap.py` reads them -/

def sMaker : ℕ := 0
def sGiveMint : ℕ := 32
def sGiveAmt : ℕ := 64
def sWantMint : ℕ := 72
def sWantAmt : ℕ := 104
def sTaker : ℕ := 112
def sTerms : ℕ := 144
def sExpiry : ℕ := 176
def sStatus : ℕ := 184
def sBump : ℕ := 185
def sNonce : ℕ := 186

def oOfferer : ℕ := 0
def oSwap : ℕ := 32
def oWantMint : ℕ := 64
def oWantAmt : ℕ := 96
def oGiveMint : ℕ := 104
def oGiveAmt : ℕ := 136
def oExpiry : ℕ := 144
def oStatus : ℕ := 152
def oBump : ℕ := 153
def oNonce : ℕ := 154

structure Swap where
  maker : Pubkey
  giveMint : Pubkey
  giveAmount : ℕ
  wantMint : Pubkey
  wantAmount : ℕ
  taker : Pubkey
  terms : Bytes
  expiry : ℤ
  status : UInt8
  bump : UInt8
  nonce : Bytes
  deriving DecidableEq

structure Offer where
  offerer : Pubkey
  swap : Pubkey
  wantMint : Pubkey
  wantAmount : ℕ
  giveMint : Pubkey
  giveAmount : ℕ
  expiry : ℤ
  status : UInt8
  bump : UInt8
  nonce : Bytes
  deriving DecidableEq

/-- A key of exactly 32 bytes; anything else raises. -/
def pk (b : Bytes) : Option Pubkey := if h : b.length = 32 then some ⟨b,h⟩ else none

def amt (d : Bytes) (off : ℕ) : ℕ := natLe (slice d off 8)

def swapFrom (d : Bytes) : Option Swap := do
  let maker ← pk (slice d sMaker 32)
  let giveMint ← pk (slice d sGiveMint 32)
  let wantMint ← pk (slice d sWantMint 32)
  let taker ← pk (slice d sTaker 32)
  let status ← d[sStatus]?
  let bump ← d[sBump]?
  return ⟨maker,giveMint,amt d sGiveAmt,wantMint,amt d sWantAmt,taker,slice d sTerms 32,
    intLe (slice d sExpiry 8),status,bump,slice d sNonce 32⟩

def offerFrom (d : Bytes) : Option Offer := do
  let offerer ← pk (slice d oOfferer 32)
  let swap ← pk (slice d oSwap 32)
  let wantMint ← pk (slice d oWantMint 32)
  let giveMint ← pk (slice d oGiveMint 32)
  let status ← d[oStatus]?
  let bump ← d[oBump]?
  return ⟨offerer,swap,wantMint,amt d oWantAmt,giveMint,amt d oGiveAmt,intLe (slice d oExpiry 8),
    status,bump,slice d oNonce 32⟩

/-! ## The event, at the offsets of its documentation -/

structure PostCreated where
  discriminator : Bytes
  magic : Bytes
  version : UInt8
  kind : UInt8
  maker : Pubkey
  post : Pubkey
  give : Pubkey
  want : Pubkey
  giveAmount : ℕ
  wantAmount : ℕ
  expiry : ℤ
  nonce : Bytes
  deriving DecidableEq

/-- The 198 bytes of an event, field by field. -/
def postCreatedFrom (b : Bytes) : Option PostCreated :=
  if b.length = 198 then
    some
      { discriminator := slice b 0 8
        magic := slice b 8 4
        version := byteAt b 12
        kind := byteAt b 13
        maker := keyAt b 14
        post := keyAt b 46
        give := keyAt b 78
        want := keyAt b 110
        giveAmount := u64At b 142
        wantAmount := u64At b 150
        expiry := i64At b 158
        nonce := slice b 166 32 }
  else none

theorem pk_slice (d : Bytes) (off : ℕ) (h : off+32 ≤ d.length) :
    pk (slice d off 32) = some (keyAt d off) := by
  rw [pk, dif_pos (slice_length _ _ _ h), Option.some_inj]
  exact Pubkey.ext' (keyAt_bytes _ _ h).symm

theorem getElem?_byteAt (d : Bytes) (i : ℕ) (h : i < d.length) : d[i]? = some (byteAt d i) := by
  simp [byteAt, h]

/-- On a full record the client's decoder never raises. -/
theorem swapFrom_full (d : Bytes) (h : d.length = Xete.Swap.swapLen) : swapFrom d = some
    ⟨keyAt d sMaker,keyAt d sGiveMint,u64At d sGiveAmt,keyAt d sWantMint,u64At d sWantAmt,
      keyAt d sTaker,slice d sTerms 32,i64At d sExpiry,byteAt d sStatus,byteAt d sBump,
      slice d sNonce 32⟩ := by
  have hl : d.length = 220 := h
  have hst : d[sStatus]? = some (byteAt d sStatus) := getElem?_byteAt _ _ (by rw [hl]; decide)
  have hb : d[sBump]? = some (byteAt d sBump) := getElem?_byteAt _ _ (by rw [hl]; decide)
  simp only [swapFrom]
  rw [pk_slice _ _ (by rw [hl]; decide), pk_slice _ _ (by rw [hl]; decide),
    pk_slice _ _ (by rw [hl]; decide), pk_slice _ _ (by rw [hl]; decide), hst, hb]
  rfl

theorem offerFrom_full (d : Bytes) (h : d.length = Xete.Swap.offerLen) : offerFrom d = some
    ⟨keyAt d oOfferer,keyAt d oSwap,keyAt d oWantMint,u64At d oWantAmt,keyAt d oGiveMint,
      u64At d oGiveAmt,i64At d oExpiry,byteAt d oStatus,byteAt d oBump,slice d oNonce 32⟩ := by
  have hl : d.length = 186 := h
  have hst : d[oStatus]? = some (byteAt d oStatus) := getElem?_byteAt _ _ (by rw [hl]; decide)
  have hb : d[oBump]? = some (byteAt d oBump) := getElem?_byteAt _ _ (by rw [hl]; decide)
  simp only [offerFrom]
  rw [pk_slice _ _ (by rw [hl]; decide), pk_slice _ _ (by rw [hl]; decide),
    pk_slice _ _ (by rw [hl]; decide), pk_slice _ _ (by rw [hl]; decide), hst, hb]
  rfl

end Xete.Sdk
