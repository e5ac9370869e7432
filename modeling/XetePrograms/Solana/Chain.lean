import XetePrograms.Library.Octets

/-!
# Accounts, addresses and the programs of the chain

The ledger maps every address to an account. What other programs do when they
are invoked is not part of this development: it is the `process` field of a
host, next to the address derivation, the hash function and the rent rule that
the runtime supplies.
-/

set_option autoImplicit false

namespace Xete.Chain
open Xete.Octets

structure Pubkey where
  bytes : Bytes
  size : bytes.length = 32
  deriving DecidableEq

@[ext] theorem Pubkey.ext' {a b : Pubkey} (h : a.bytes = b.bytes) : a = b := by
  cases a; cases b; cases h; rfl

@[simp] theorem Pubkey.bytes_length (k : Pubkey) : k.bytes.length = 32 := k.size

@[simp] theorem Pubkey.bytes_inj {a b : Pubkey} : a.bytes = b.bytes ↔ a = b :=
  ⟨Pubkey.ext',congrArg _⟩

@[simp] theorem Pubkey.bytes_append_inj {a b : Pubkey} {x y : Bytes} :
    a.bytes ++ x = b.bytes ++ y ↔ a = b ∧ x = y := by
  constructor
  · intro h
    obtain ⟨ha,hx⟩ := List.append_inj h (by simp)
    exact ⟨Pubkey.ext' ha,hx⟩
  · rintro ⟨rfl,rfl⟩
    rfl

def zeroKey : Pubkey := ⟨zeros 32,rfl⟩

/-- The 32 bytes of `d` from `off` on, padded with zeros past the end. -/
def keyAt (d : Bytes) (off : ℕ) : Pubkey := ⟨(d.drop off).takeD 32 0,by simp⟩

theorem keyAt_bytes (d : Bytes) (off : ℕ) (h : off+32 ≤ d.length) :
    (keyAt d off).bytes = slice d off 32 := by
  simp only [keyAt, slice]
  exact List.takeD_eq_take 0 (by simp; omega)

theorem keyAt_eq (d : Bytes) (off : ℕ) (k : Pubkey) (h : slice d off 32 = k.bytes) :
    keyAt d off = k := by
  apply Pubkey.ext'
  rw [keyAt_bytes, h]
  have := congrArg List.length h
  simp [slice] at this
  omega

theorem takeD_take {α : Type} (n : ℕ) (l : List α) (a : α) :
    (l.take n).takeD n a = l.takeD n a := by
  induction n generalizing l with
  | zero => rfl
  | succ n ih =>
    cases l with
    | nil => rfl
    | cons x l => simp [ih]

theorem keyAt_congr {d d' : Bytes} {off off' : ℕ} (h : slice d off 32 = slice d' off' 32) :
    keyAt d off = keyAt d' off' := by
  apply Pubkey.ext'
  change (d.drop off).takeD 32 0 = (d'.drop off').takeD 32 0
  rw [← takeD_take, ← takeD_take 32 (d'.drop off')]
  exact congrArg (fun x => x.takeD 32 0) h

theorem takeD_replicate (j n : ℕ) :
    (List.replicate j (0 : UInt8)).takeD n 0 = List.replicate n 0 := by
  induction n generalizing j with
  | zero => rfl
  | succ n ih =>
    cases j with
    | zero => simp [List.replicate_succ]
    | succ j => simp [List.replicate_succ, ih]

theorem keyAt_zeros (n off : ℕ) : keyAt (zeros n) off = zeroKey := by
  apply Pubkey.ext'
  show ((List.replicate n (0 : UInt8)).drop off).takeD 32 0 = List.replicate 32 0
  rw [List.drop_replicate, takeD_replicate]

def u64Max : ℕ := 2^64-1

def u64At (d : Bytes) (off : ℕ) : ℕ := natLe (slice d off 8)

def i64At (d : Bytes) (off : ℕ) : ℤ := intLe (slice d off 8)

theorem u64At_le (d : Bytes) (off : ℕ) : u64At d off ≤ u64Max := by
  have h := natLe_lt (slice d off 8)
  have hl := slice_length_le d off 8
  have hp : 256^(slice d off 8).length ≤ 256^8 := Nat.pow_le_pow_right (by decide) hl
  simp only [u64At, u64Max]
  omega

theorem u64At_lt (d : Bytes) (off : ℕ) : u64At d off < 256^8 := by
  have h := u64At_le d off
  simp only [u64Max] at h
  omega

theorem i64At_bounds (d : Bytes) (off : ℕ) :
    -(256^8 : ℤ) ≤ 2*i64At d off ∧ 2*i64At d off < 256^8 := by
  obtain ⟨hlo,hhi⟩ := intLe_bounds (slice d off 8)
  have hle : (256 : ℤ)^(slice d off 8).length ≤ 256^8 :=
    pow_le_pow_right₀ (by norm_num) (slice_length_le d off 8)
  rw [i64At]
  omega

structure Account where
  lamports : ℕ
  owner : Pubkey
  data : Bytes
  deriving DecidableEq

abbrev Ledger := Pubkey → Account

/-- An account as an instruction names it. -/
structure AccountInfo where
  key : Pubkey
  isSigner : Bool
  isWritable : Bool
  deriving DecidableEq

structure AccountMeta where
  key : Pubkey
  isSigner : Bool
  isWritable : Bool
  deriving DecidableEq

def signing (k : Pubkey) : AccountMeta := ⟨k,true,false⟩
def payingFor (k : Pubkey) : AccountMeta := ⟨k,true,true⟩
def writing (k : Pubkey) : AccountMeta := ⟨k,false,true⟩
def reading (k : Pubkey) : AccountMeta := ⟨k,false,false⟩

/-! ## Known program addresses -/

def systemId : Pubkey := zeroKey

def splTokenId : Pubkey := ⟨[6,221,246,225,215,101,161,147,217,203,225,70,206,235,121,172,
  28,180,133,237,95,91,55,145,58,140,245,133,126,255,0,169],rfl⟩

def token2022Id : Pubkey := ⟨[6,221,246,225,238,117,143,222,24,66,93,188,228,108,205,218,
  182,26,252,77,131,185,13,39,254,189,249,40,216,161,139,252],rfl⟩

def tokenMetadataId : Pubkey := ⟨[11,112,101,177,227,209,124,69,56,157,82,127,107,4,195,205,
  88,184,108,115,26,160,253,181,73,182,209,188,3,248,41,70],rfl⟩

def sysvarInstructionsId : Pubkey := ⟨[6,167,213,23,24,123,209,102,53,218,212,4,85,253,194,192,
  193,36,198,143,33,86,117,165,219,186,203,95,8,0,0,0],rfl⟩

def ataProgramId : Pubkey := ⟨[140,151,37,143,78,36,137,241,187,61,16,41,20,142,13,131,
  11,90,19,153,218,255,16,132,4,142,123,216,219,233,248,89],rfl⟩

def mplCoreId : Pubkey := ⟨[175,84,171,16,189,151,165,66,160,158,247,179,152,137,221,12,
  211,148,164,204,233,223,166,205,201,126,190,45,35,91,167,72],rfl⟩

def ed25519Program : Pubkey := ⟨[3,125,70,214,124,147,251,190,18,249,66,143,131,141,64,255,
  5,112,116,73,39,244,138,100,252,202,112,68,128,0,0,0],rfl⟩

/-- SPL Token and Token-2022. -/
def IsTokenProgram (p : Pubkey) : Prop := p = splTokenId ∨ p = token2022Id

instance (p : Pubkey) : Decidable (IsTokenProgram p) := by
  unfold IsTokenProgram
  infer_instance

/-! ## Cross-program invocations -/

/-- The accounts of a Token-Metadata `TransferV1`, in the order of its metas. -/
structure MplTransfer where
  tm : Pubkey
  srcTa : Pubkey
  tokenOwner : Pubkey
  dstTa : Pubkey
  dstOwner : Pubkey
  mint : Pubkey
  metadata : Pubkey
  edition : Pubkey
  ownerRecord : Pubkey
  dstRecord : Pubkey
  authority : Pubkey
  payer : Pubkey
  system : Pubkey
  sysvarIx : Pubkey
  splTok : Pubkey
  ataProg : Pubkey
  rulesProg : Pubkey
  rules : Pubkey
  amount : ℕ
  deriving DecidableEq

/-- The accounts of a Token-Metadata `DelegateTransferV1` or `RevokeTransferV1`. -/
structure MplDelegate where
  tm : Pubkey
  tokenRecord : Pubkey
  delegate : Pubkey
  metadata : Pubkey
  edition : Pubkey
  mint : Pubkey
  ownerAta : Pubkey
  authority : Pubkey
  payer : Pubkey
  system : Pubkey
  sysvarIx : Pubkey
  splTok : Pubkey
  rulesProg : Pubkey
  rules : Pubkey
  amount : ℕ
  revoke : Bool
  deriving DecidableEq

/-- The instructions that the program sends to other programs. -/
inductive Cpi where
  | createAccount (payer acct : Pubkey) (lamports space : ℕ) (owner : Pubkey)
  | transferLamports (source dest : Pubkey) (lamports : ℕ)
  | initializeAccount3 (program acct mint owner : Pubkey)
  | transferChecked (program source mint dest authority : Pubkey) (amount : ℕ) (decimals : UInt8)
  | closeAccount (program acct dest authority : Pubkey)
  | approve (program source delegate authority : Pubkey) (amount : ℕ)
  | revoke (program source authority : Pubkey)
  | mplTransfer (args : MplTransfer)
  | mplDelegate (args : MplDelegate)
  | coreTransfer (core asset collection payer authority newOwner : Pubkey)
    (authorityIsSigner : Bool)
  | corePlugin (core asset collection signer system : Pubkey) (data : Bytes)
  deriving DecidableEq

namespace Cpi

def program : Cpi → Pubkey
  | createAccount .. => systemId
  | transferLamports .. => systemId
  | initializeAccount3 p .. => p
  | transferChecked p .. => p
  | closeAccount p .. => p
  | approve p .. => p
  | revoke p .. => p
  | mplTransfer a => a.tm
  | mplDelegate a => a.tm
  | coreTransfer c .. => c
  | corePlugin c .. => c

def metas : Cpi → List AccountMeta
  | createAccount payer acct .. => [payingFor payer,payingFor acct]
  | transferLamports source dest _ => [payingFor source,writing dest]
  | initializeAccount3 _ acct mint _ => [writing acct,reading mint]
  | transferChecked _ source mint dest authority _ _ =>
      [writing source,reading mint,writing dest,signing authority]
  | closeAccount _ acct dest authority => [writing acct,writing dest,signing authority]
  | approve _ source delegate authority _ => [writing source,reading delegate,signing authority]
  | revoke _ source authority => [writing source,signing authority]
  | mplTransfer a => [writing a.srcTa,reading a.tokenOwner,writing a.dstTa,reading a.dstOwner,
      reading a.mint,writing a.metadata,reading a.edition,writing a.ownerRecord,
      writing a.dstRecord,signing a.authority,payingFor a.payer,reading a.system,
      reading a.sysvarIx,reading a.splTok,reading a.ataProg,reading a.rulesProg,reading a.rules]
  | mplDelegate a => [writing a.tokenRecord,reading a.delegate,writing a.metadata,
      reading a.edition,writing a.tokenRecord,reading a.mint,writing a.ownerAta,
      signing a.authority,payingFor a.payer,reading a.system,reading a.sysvarIx,
      reading a.splTok,reading a.rulesProg,reading a.rules]
  | coreTransfer core asset collection payer authority newOwner signer =>
      [writing asset,reading collection,payingFor payer,⟨authority,signer,false⟩,
        reading newOwner,reading core,reading core]
  | corePlugin core asset collection signer system _ =>
      [writing asset,if collection = core then reading core else writing collection,
        payingFor signer,reading core,reading system,reading core]

def data : Cpi → Bytes
  | createAccount _ _ lamports space owner =>
      [0,0,0,0] ++ le 8 lamports ++ le 8 space ++ owner.bytes
  | transferLamports _ _ lamports => [2,0,0,0] ++ le 8 lamports
  | initializeAccount3 _ _ _ owner => 18 :: owner.bytes
  | transferChecked _ _ _ _ _ amount decimals => 12 :: le 8 amount ++ [decimals]
  | closeAccount .. => [9]
  | approve _ _ _ _ amount => 4 :: le 8 amount
  | revoke .. => [5]
  | mplTransfer a => [0x31,0x00] ++ le 8 a.amount ++ [0x00]
  | mplDelegate a => if a.revoke then [0x2d,0x02] else [0x2c,0x02] ++ le 8 a.amount ++ [0x00]
  | coreTransfer .. => [0x0e,0x00]
  | corePlugin _ _ _ _ _ d => d

/-- The addresses whose signature the invoked program sees. -/
def signers (c : Cpi) : List Pubkey := (c.metas.filter AccountMeta.isSigner).map AccountMeta.key

/-- The invocations made through the token helpers. -/
def isToken : Cpi → Bool
  | initializeAccount3 .. => true
  | transferChecked .. => true
  | closeAccount .. => true
  | approve .. => true
  | revoke .. => true
  | _ => false

end Cpi

/-! ## The host -/

/-- What the runtime and the other programs supply. `derive` hashes seeds and a
program address and answers only with an address off the curve. -/
structure Host where
  programId : Pubkey
  derive : Bytes → Pubkey → Option Pubkey
  hash : Bytes → Pubkey
  minimumBalance : ℕ → ℕ
  process : Cpi → Ledger → Option Ledger

namespace Host
variable (H : Host)

def createProgramAddress (seeds : List Bytes) (program : Pubkey) : Option Pubkey :=
  H.derive seeds.flatten program

def findBump (seeds : List Bytes) (program : Pubkey) : ℕ → Option (Pubkey × UInt8)
  | 0 => none
  | n+1 => match H.createProgramAddress (seeds ++ [[UInt8.ofNat (n+1)]]) program with
    | some a => some (a,UInt8.ofNat (n+1))
    | none => findBump seeds program n

/-- The first bump seed, from 255 down to 1, whose address is off the curve. -/
def findProgramAddress (seeds : List Bytes) (program : Pubkey) : Option (Pubkey × UInt8) :=
  H.findBump seeds program 255

theorem findBump_create (seeds : List Bytes) (program : Pubkey) (n : ℕ) (a : Pubkey) (b : UInt8)
    (h : H.findBump seeds program n = some (a,b)) :
    H.createProgramAddress (seeds ++ [[b]]) program = some a := by
  induction n with
  | zero => simp [findBump] at h
  | succ n ih =>
    unfold findBump at h
    split at h
    · rename_i hc
      cases h
      exact hc
    · exact ih h

theorem find_create (seeds : List Bytes) (program : Pubkey) (a : Pubkey) (b : UInt8)
    (h : H.findProgramAddress seeds program = some (a,b)) :
    H.createProgramAddress (seeds ++ [[b]]) program = some a :=
  H.findBump_create seeds program 255 a b h

/-- An address that only this program can sign for. -/
def IsPda (a : Pubkey) : Prop := ∃ bytes, H.derive bytes H.programId = some a

theorem create_isPda (seeds : List Bytes) (a : Pubkey)
    (h : H.createProgramAddress seeds H.programId = some a) : H.IsPda a := ⟨_,h⟩

/-- No two seed strings share an address. -/
def CollisionFree : Prop :=
  ∀ (s t : Bytes) (p q a : Pubkey), H.derive s p = some a → H.derive t q = some a → s = t ∧ p = q

end Host

/-- An instruction of the enclosing transaction, as the instructions sysvar shows it. -/
structure TxInstruction where
  programId : Pubkey
  data : Bytes
  deriving DecidableEq

/-- What one call of the program sees besides the ledger. -/
structure Env where
  host : Host
  accounts : List AccountInfo
  clock : ℤ
  instructions : List TxInstruction
  current : ℕ

namespace Env
variable (E : Env)

abbrev programId : Pubkey := E.host.programId

def signed (k : Pubkey) : Prop := ∃ a ∈ E.accounts, a.key = k ∧ a.isSigner = true

def writable (k : Pubkey) : Prop := ∃ a ∈ E.accounts, a.key = k ∧ a.isWritable = true

instance (k : Pubkey) : Decidable (E.signed k) := by unfold signed; infer_instance

instance (k : Pubkey) : Decidable (E.writable k) := by unfold writable; infer_instance

/-- The address that signs through `invoke_signed`. -/
def pdaSigner (seeds : Option (List Bytes)) : Option Pubkey :=
  seeds.bind (fun s => E.host.createProgramAddress s E.programId)

/-- The runtime's check before a cross-program invocation: the program is among
the accounts, seeds that are given have an address, and no account gains a
privilege the caller does not hold. A call of the program on itself is refused
here; every instruction it could carry is refused by the program's own length
checks. -/
def permits (c : Cpi) (seeds : Option (List Bytes)) : Prop :=
  c.program ≠ E.programId ∧ (∃ a ∈ E.accounts, a.key = c.program) ∧
    (seeds.isSome = true → (E.pdaSigner seeds).isSome = true) ∧
    ∀ a ∈ c.metas, (a.isSigner = true → E.signed a.key ∨ E.pdaSigner seeds = some a.key) ∧
      (a.isWritable = true → E.writable a.key)

instance (c : Cpi) (seeds : Option (List Bytes)) : Decidable (E.permits c seeds) := by
  unfold permits
  infer_instance

theorem permits_signer (c : Cpi) (seeds : Option (List Bytes)) (h : E.permits c seeds)
    (k : Pubkey) (hk : k ∈ c.signers) : E.signed k ∨ E.pdaSigner seeds = some k := by
  obtain ⟨a,ha,rfl⟩ := List.mem_map.mp hk
  obtain ⟨hm,hs⟩ := List.mem_filter.mp ha
  exact (h.2.2.2 a hm).1 hs

end Env

end Xete.Chain
