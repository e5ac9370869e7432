import XetePrograms.Solana.Reference
import XetePrograms.Tab.Settled

/-!
# A small host for settlements

The system program of the reference host, one settlement address, and a hash
that is never zero.
-/

set_option autoImplicit false

namespace Xete.Tab.Counter
open Xete.Octets Xete.Chain Xete.Runtime Xete.Rules Xete.Reference

def programKey : Pubkey := keyOf 101
def depositor : Pubkey := keyOf 1
def beneficiary : Pubkey := keyOf 2
def settlementKey : Pubkey := keyOf 30

def settlementId : Bytes := zeros 32

def counter : Host :=
  { host programKey [((Swap.bumped (seeds settlementId) 255).flatten,programKey,settlementKey)] with
    hash := fun b => ⟨1 :: b.reverse.takeD 31 0,by simp⟩ }

def start : Ledger := ledgerOf [(depositor,walletAccount),(beneficiary,walletAccount)]

/-- What a call sees whose first account signs. -/
def sees (clock : ℤ) (signer : Pubkey) (others : List Pubkey) : Env where
  host := counter
  accounts := ⟨signer,true,true⟩ :: others.map fun k => ⟨k,false,true⟩
  clock := clock
  instructions := []
  current := 0

theorem counter_systemRules : SystemRules counter :=
  have h := host_systemRules programKey
    [((Swap.bumped (seeds settlementId) 255).flatten,programKey,settlementKey)]
  ⟨h.create,h.transfer,h.rent⟩

def depositSees : Env := sees 0 depositor [settlementKey,systemId]

/-- A deposit for the beneficiary who shows the salt `[7]`, from the clock 5 on. -/
def depositData (amount : ℕ) : Bytes :=
  0 :: settlementId ++ le 8 amount ++ (counter.hash (beneficiary.bytes ++ [7])).bytes ++ leInt 8 5

def claimSees : Env := sees 10 beneficiary [settlementKey]

def claimData : Bytes := 1 :: settlementId ++ le 4 1 ++ [7]

end Xete.Tab.Counter
