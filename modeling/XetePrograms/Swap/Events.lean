import XetePrograms.Swap.Cpi

/-!
# The event logged on every order creation
-/

set_option autoImplicit false

namespace Xete.Swap
open Xete.Octets Xete.Chain Xete.Runtime

def discPostCreated : Bytes := [0x51,0x55,0xd0,0xc6,0x8d,0xfd,0x67,0xfd]
def magic : Bytes := [120,101,116,101]
def schemaVersion : UInt8 := 1
def postCreatedLen : ℕ := 198

def kindSwap : UInt8 := 0
def kindListing : UInt8 := 1
def kindListingPnft : UInt8 := 2
def kindListingCore : UInt8 := 3
def kindSwapPnft : UInt8 := 4
def kindSwapCore : UInt8 := 5

def encodePostCreated (kind : UInt8) (maker post give want : Pubkey) (giveAmount wantAmount : ℕ)
    (expiry : ℤ) (nonce : Bytes) : Bytes :=
  patches (zeros postCreatedLen)
    [(0,discPostCreated),(8,magic),(12,[schemaVersion]),(13,[kind]),(14,maker.bytes),
      (46,post.bytes),(78,give.bytes),(110,want.bytes),(142,le 8 giveAmount),
      (150,le 8 wantAmount),(158,leInt 8 expiry),(166,nonce)]

def emitPostCreated (E : Env) (kind : UInt8) (maker post give want : Pubkey)
    (giveAmount wantAmount : ℕ) (expiry : ℤ) (nonce : Bytes) : Exec Unit :=
  perform E (.log (encodePostCreated kind maker post give want giveAmount wantAmount expiry nonce))

end Xete.Swap
