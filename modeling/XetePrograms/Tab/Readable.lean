import XetePrograms.Library.Borsh
import XetePrograms.Swap.State

/-!
# The readable build of the settlement program

The instruction and the settlement are Borsh values, and the accounts are taken
one after the other, so that further ones are ignored.
-/

set_option autoImplicit false

namespace Xete.Tab.Readable
open Xete.Octets Xete.Weakest Xete.Chain Xete.Runtime Xete.Borsh
open Xete.Swap (findAddress bumped)

variable (E : Env)

/-- The literal `escrow`. -/
def seed : Bytes := [101,115,99,114,111,119]

def pubkey : Codec Pubkey :=
  (Codec.array 32).map (fun b => keyAt b 0) Pubkey.bytes (fun _ => True) (fun k _ => k.size)
    (fun k _ => keyAt_eq _ _ _ (slice_all _ _ k.size)) fun b hb =>
      ⟨(keyAt_bytes b 0 (by rw [hb])).trans (slice_all b 32 hb),trivial⟩

structure Settlement where
  depositor : Pubkey
  amount : ℕ
  beneficiaryCommitment : Bytes
  unlockTime : ℤ
  bump : UInt8
  deriving DecidableEq

namespace Settlement

def len : ℕ := 32+8+32+8+1

/-- The fields as the types of the source bound them. -/
def Valid (s : Settlement) : Prop :=
  s.amount < 256^8 ∧ s.beneficiaryCommitment.length = 32 ∧
    -(256^8 : ℤ) ≤ 2*s.unlockTime ∧ 2*s.unlockTime < 256^8

def codec : Codec Settlement :=
  (Codec.pair pubkey (.pair (.uint 8) (.pair (.array 32) (.pair (.int 8) .byte)))).map
    (fun p => ⟨p.1,p.2.1,p.2.2.1,p.2.2.2.1,p.2.2.2.2⟩)
    (fun s => (s.depositor,s.amount,s.beneficiaryCommitment,s.unlockTime,s.bump)) Valid
    (fun _ h => ⟨trivial,h.1,h.2.1,h.2.2,trivial⟩) (fun _ _ => rfl)
    fun _ h => ⟨rfl,h.2.1,h.2.2.1,h.2.2.2.1⟩

end Settlement

inductive SettlementInstruction where
  | deposit (settlementId : Bytes) (amount : ℕ) (beneficiaryCommitment : Bytes) (unlockTime : ℤ)
  | claim (settlementId salt : Bytes)
  | reclaim (settlementId : Bytes)
  deriving DecidableEq

namespace SettlementInstruction

def Valid : SettlementInstruction → Prop
  | deposit i n c u => i.length = 32 ∧ n < 256^8 ∧ c.length = 32 ∧
      -(256^8 : ℤ) ≤ 2*u ∧ 2*u < 256^8
  | claim i s => i.length = 32 ∧ s.length < 256^4
  | reclaim i => i.length = 32

def codec : Codec SettlementInstruction :=
  (Codec.either
    (.variant 0 (.pair (.array 32) (.pair (.uint 8) (.pair (.array 32) (.int 8)))))
    (.either (.variant 1 (.pair (.array 32) (.vec 4))) (.variant 2 (.array 32))
      (Codec.variant_disjoint (by decide)))
    (fun d p h => Codec.either_none.mpr ⟨Codec.variant_disjoint (by decide) d p h,
      Codec.variant_disjoint (by decide) d p h⟩)).map
    (fun
      | .inl p => deposit p.1 p.2.1 p.2.2.1 p.2.2.2
      | .inr (.inl p) => claim p.1 p.2
      | .inr (.inr i) => reclaim i)
    (fun
      | deposit i n c u => .inl (i,n,c,u)
      | claim i s => .inr (.inl (i,s))
      | reclaim i => .inr (.inr i)) Valid
    (fun x h => by cases x <;> exact h) (fun x _ => by cases x <;> rfl)
    fun x h => by
      rcases x with p | p | i <;> exact ⟨rfl,h⟩

end SettlementInstruction

def settlementPda (settlementId : Bytes) : Exec (Pubkey × UInt8) :=
  findAddress E [seed,settlementId]

/-- Load and verify a settlement: right address, owned by the program, present. -/
def load (settlement : AccountInfo) (settlementId : Bytes) : Exec Settlement := do
  let (pda,_) ← settlementPda E settlementId
  failIf (pda ≠ settlement.key) .invalidSeeds
  failIf ((← ownerOf settlement) ≠ E.programId) .illegalOwner
  let data ← dataOf settlement
  unwrap (Settlement.codec.fromSlice data) .invalidAccountData

/-- Sweep every lamport into `dest` and wipe the data. -/
def close (account dest : AccountInfo) : Exec Unit := do
  let lamports := ((← get).ledger account.key).lamports
  failIf (u64Max < ((← get).ledger dest.key).lamports+lamports) .arithmeticOverflow
  perform E (.close account.key dest.key)

def deposit (settlementId : Bytes) (amount : ℕ) (beneficiaryCommitment : Bytes) (unlockTime : ℤ) :
    Exec Unit := do
  let depositor :: settlement :: _systemProgram :: _ := E.accounts
    | throw .notEnoughAccountKeys
  failIf (depositor.isSigner = false) .missingRequiredSignature
  let (pda,bump) ← settlementPda E settlementId
  failIf (pda ≠ settlement.key) .invalidSeeds
  let account := (← get).ledger settlement.key
  failIf (0 < account.lamports ∨ 0 < account.data.length) .accountAlreadyInitialized
  failIf (amount < E.host.minimumBalance Settlement.len) .insufficientFunds
  perform E (.invoke (.createAccount depositor.key settlement.key amount Settlement.len E.programId)
    (some (bumped [seed,settlementId] bump)))
  let bytes := Settlement.codec.encode ⟨depositor.key,amount,beneficiaryCommitment,unlockTime,bump⟩
  let data ← dataOf settlement
  perform E (.write settlement.key (patch data 0 bytes))

def claim (settlementId salt : Bytes) : Exec Unit := do
  let beneficiary :: settlement :: _ := E.accounts
    | throw .notEnoughAccountKeys
  failIf (beneficiary.isSigner = false) .missingRequiredSignature
  let state ← load E settlement settlementId
  failIf ((E.host.hash (beneficiary.key.bytes ++ salt)).bytes ≠ state.beneficiaryCommitment)
    .invalidArgument
  failIf (E.clock < state.unlockTime) .invalidArgument
  close E settlement beneficiary

def reclaim (settlementId : Bytes) : Exec Unit := do
  let depositor :: settlement :: _ := E.accounts
    | throw .notEnoughAccountKeys
  failIf (depositor.isSigner = false) .missingRequiredSignature
  let state ← load E settlement settlementId
  failIf (state.depositor ≠ depositor.key) .illegalOwner
  close E settlement depositor

def process (data : Bytes) : Exec Unit := do
  match ← unwrap (SettlementInstruction.codec.fromSlice data) .invalidInstructionData with
  | .deposit settlementId amount beneficiaryCommitment unlockTime =>
    deposit E settlementId amount beneficiaryCommitment unlockTime
  | .claim settlementId salt => claim E settlementId salt
  | .reclaim settlementId => reclaim E settlementId

end Xete.Tab.Readable
