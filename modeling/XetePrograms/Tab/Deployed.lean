import XetePrograms.Swap.State

/-!
# The deployed build of the settlement program

The payload of an instruction is read at fixed offsets, the accounts by an
exact list, and the 81 bytes of a settlement by hand.
-/

set_option autoImplicit false

namespace Xete.Tab.Deployed
open Xete.Octets Xete.Weakest Xete.Chain Xete.Runtime
open Xete.Swap (findAddress bumped)

variable (E : Env)

/-- The literal `escrow`. -/
def seed : Bytes := [101,115,99,114,111,119]

def oDepositor : ℕ := 0
def oAmount : ℕ := 32
def oCommit : ℕ := 40
def oUnlock : ℕ := 72
def oBump : ℕ := 80
def stateLen : ℕ := 81

/-- The bytes written to a new settlement, field by field. -/
def settlementFields (depositor : Pubkey) (amount : ℕ) (commitment : Bytes) (unlock : ℤ)
    (bump : UInt8) : List (ℕ × Bytes) :=
  [(oDepositor,depositor.bytes),(oAmount,le 8 amount),(oCommit,commitment),
    (oUnlock,leInt 8 unlock),(oBump,[bump])]

/-- The address of a settlement and its owner. -/
def verifyPda (settlement : AccountInfo) (settlementId : Bytes) : Exec Unit := do
  let (pda,_) ← findAddress E [seed,settlementId]
  failIf (pda ≠ settlement.key) .invalidSeeds
  failIf ((← ownerOf settlement) ≠ E.programId) .illegalOwner

/-- Sweep every lamport into `dest` and wipe the data. -/
def close (account dest : AccountInfo) : Exec Unit := do
  let amt := ((← get).ledger account.key).lamports
  failIf (u64Max < ((← get).ledger dest.key).lamports+amt) .arithmeticOverflow
  perform E (.close account.key dest.key)

/-- The rent floor is left to the creation of the account. -/
def deposit (d : Bytes) : Exec Unit := do
  failIf (d.length ≠ 80) .invalidInstructionData
  let settlementId := slice d 0 32
  let amount := u64At d 32
  let commitment := slice d 40 32
  let unlock := i64At d 72
  let [depositor,settlement,_system] := E.accounts
    | throw .notEnoughAccountKeys
  failIf (depositor.isSigner = false) .missingRequiredSignature
  let (pda,bump) ← findAddress E [seed,settlementId]
  failIf (pda ≠ settlement.key) .invalidSeeds
  perform E (.invoke (.createAccount depositor.key settlement.key amount stateLen E.programId)
    (some (bumped [seed,settlementId] bump)))
  let s ← dataOf settlement
  perform E (.write settlement.key
    (patches s (settlementFields depositor.key amount commitment unlock bump)))

def claim (d : Bytes) : Exec Unit := do
  failIf (d.length < 36) .invalidInstructionData
  let settlementId := slice d 0 32
  let saltLen := natLe (slice d 32 4)
  failIf (d.length < 36+saltLen) .invalidInstructionData
  let salt := slice d 36 saltLen
  let [beneficiary,settlement] := E.accounts
    | throw .notEnoughAccountKeys
  failIf (beneficiary.isSigner = false) .missingRequiredSignature
  verifyPda E settlement settlementId
  let s ← dataOf settlement
  failIf (s.length < oCommit+32) .panicked
  failIf ((E.host.hash (beneficiary.key.bytes ++ salt)).bytes ≠ slice s oCommit 32)
    .invalidArgument
  failIf (s.length < oUnlock+8) .panicked
  failIf (E.clock < i64At s oUnlock) .invalidArgument
  close E settlement beneficiary

def reclaim (d : Bytes) : Exec Unit := do
  failIf (d.length ≠ 32) .invalidInstructionData
  let settlementId := slice d 0 32
  let [depositor,settlement] := E.accounts
    | throw .notEnoughAccountKeys
  failIf (depositor.isSigner = false) .missingRequiredSignature
  verifyPda E settlement settlementId
  let s ← dataOf settlement
  failIf (s.length < oDepositor+32) .panicked
  failIf (slice s oDepositor 32 ≠ depositor.key.bytes) .illegalOwner
  close E settlement depositor

def process : Bytes → Exec Unit
  | [] => throw .invalidInstructionData
  | tag :: rest =>
    match tag with
    | 0 => deposit E rest
    | 1 => claim E rest
    | 2 => reclaim E rest
    | _ => throw .invalidInstructionData

end Xete.Tab.Deployed
