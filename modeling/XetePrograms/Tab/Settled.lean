import XetePrograms.Solana.Rules
import XetePrograms.Tab.Deployed
import XetePrograms.Tab.Readable

/-!
# What a settlement call does

Both builds refine one relation: the deployed one on the exact account list,
the readable one on an exact payload, a settlement of the exact size and an
amount above the rent floor.
-/

set_option autoImplicit false

namespace Xete.Tab
open Xete.Octets Xete.Weakest Xete.Chain Xete.Runtime Xete.Rules Xete.Borsh
open Xete.Swap (bumped wp_findAddress)
open Readable (Settlement SettlementInstruction)

/-! ## The wire format -/

theorem le_u64At (d : Bytes) (off : ℕ) (h : off+8 ≤ d.length) :
    le 8 (u64At d off) = slice d off 8 := by
  have := le_natLe (slice d off 8)
  rwa [slice_length _ _ _ h] at this

theorem leInt_i64At (d : Bytes) (off : ℕ) (h : off+8 ≤ d.length) :
    leInt 8 (i64At d off) = slice d off 8 := by
  have := leInt_intLe (slice d off 8)
  rwa [slice_length _ _ _ h] at this

def settlementAt (b : Bytes) : Settlement :=
  ⟨keyAt b 0,u64At b 32,slice b 40 32,i64At b 72,byteAt b 80⟩

theorem settlement_encode (b : Bytes) (h : b.length = 81) :
    Settlement.codec.encode (settlementAt b) = b := by
  have hb : slice b 80 1 = [byteAt b 80] := by
    rw [byteAt_eq_slice]
    have := slice_length b 80 1 (by omega)
    rcases hs : slice b 80 1 with _ | ⟨c,_ | ⟨_,_⟩⟩ <;> rw [hs] at this <;> simp at this
    rfl
  change (keyAt b 0).bytes ++ (le 8 (u64At b 32) ++ (slice b 40 32 ++ (leInt 8 (i64At b 72) ++
    [byteAt b 80]))) = b
  rw [keyAt_bytes b 0 (by omega), le_u64At b 32 (by omega), leInt_i64At b 72 (by omega), ← hb,
    slice_append_slice b 72, slice_append_slice b 40, slice_append_slice b 32,
    slice_append_slice b 0]
  exact slice_all b _ h

theorem settlementAt_valid (b : Bytes) (h : b.length = 81) : (settlementAt b).Valid :=
  ⟨u64At_lt b 32,slice_length b 40 32 (by omega),i64At_bounds b 72⟩

theorem settlement_length (t : Settlement) (h : t.Valid) :
    (Settlement.codec.encode t).length = 81 := by
  change (t.depositor.bytes ++ (le 8 t.amount ++ (t.beneficiaryCommitment ++
    (leInt 8 t.unlockTime ++ [t.bump])))).length = 81
  simp [h.2.1]

/-- Every string of 81 bytes is a settlement, and no other string is. -/
theorem settlement_fromSlice (b : Bytes) (t : Settlement) :
    Settlement.codec.fromSlice b = some t ↔ b.length = 81 ∧ t = settlementAt b := by
  have key : b.length = 81 → Settlement.codec.fromSlice b = some (settlementAt b) := fun h =>
    (Settlement.codec.fromSlice_iff b _).mpr
      ⟨settlementAt_valid b h,(settlement_encode b h).symm⟩
  constructor
  · intro h
    obtain ⟨hv,hb⟩ := (Settlement.codec.fromSlice_iff b t).mp h
    have hl : b.length = 81 := by rw [hb, settlement_length t hv]
    exact ⟨hl,Option.some_inj.mp (h.symm.trans (key hl))⟩
  · rintro ⟨hl,rfl⟩
    exact key hl

def saltLen (d : Bytes) : ℕ := natLe (slice d 32 4)

def instructionAt : Bytes → Option SettlementInstruction
  | 0 :: d => if d.length = 80 then
      some (.deposit (slice d 0 32) (u64At d 32) (slice d 40 32) (i64At d 72)) else none
  | 1 :: d => if 36 ≤ d.length ∧ d.length = 36+saltLen d then
      some (.claim (slice d 0 32) (slice d 36 (saltLen d))) else none
  | 2 :: d => if d.length = 32 then some (.reclaim (slice d 0 32)) else none
  | _ => none

theorem instructionAt_encode (b : Bytes) (x : SettlementInstruction)
    (h : instructionAt b = some x) : x.Valid ∧ b = SettlementInstruction.codec.encode x := by
  unfold instructionAt at h
  split at h
  · rename_i d
    split at h
    · rename_i hl
      cases h
      refine ⟨⟨slice_length d 0 32 (by omega),u64At_lt d 32,slice_length d 40 32 (by omega),
        i64At_bounds d 72⟩,?_⟩
      change 0 :: d = 0 :: (slice d 0 32 ++ (le 8 (u64At d 32) ++ (slice d 40 32 ++
        leInt 8 (i64At d 72))))
      rw [le_u64At d 32 (by omega), leInt_i64At d 72 (by omega), slice_append_slice d 40,
        slice_append_slice d 32, slice_append_slice d 0, slice_all d _ hl]
    · cases h
  · rename_i d
    split at h
    · rename_i hl
      cases h
      have hs : (slice d 36 (saltLen d)).length = saltLen d := slice_length d 36 _ (by omega)
      have hf : (slice d 32 4).length = 4 := slice_length d 32 4 (by omega)
      have hb : saltLen d < 256^4 := by
        rw [← hf]
        exact natLe_lt _
      have he : le 4 (saltLen d) = slice d 32 4 := by
        have := le_natLe (slice d 32 4)
        rwa [hf] at this
      refine ⟨⟨slice_length d 0 32 (by omega),by rw [hs]; exact hb⟩,?_⟩
      change 1 :: d = 1 :: (slice d 0 32 ++ (le 4 (slice d 36 (saltLen d)).length ++
        slice d 36 (saltLen d)))
      rw [hs, he, slice_append_slice d 32, slice_append_slice d 0, slice_all]
      omega
    · cases h
  · rename_i d
    split at h
    · rename_i hl
      cases h
      refine ⟨slice_length d 0 32 (by omega),?_⟩
      change 2 :: d = 2 :: slice d 0 32
      rw [slice_all d 32 hl]
    · cases h
  · cases h

theorem instructionAt_of_encode (x : SettlementInstruction) (h : x.Valid) :
    (instructionAt (SettlementInstruction.codec.encode x)).isSome = true := by
  cases x with
  | deposit i n c u =>
    change (instructionAt (0 :: (i ++ (le 8 n ++ (c ++ leInt 8 u))))).isSome = true
    simp [instructionAt, h.1, h.2.2.1]
  | claim i t =>
    have hs : saltLen (i ++ (le 4 t.length ++ t)) = t.length := by
      rw [saltLen, slice_append_right _ _ _ _ (by rw [h.1]), h.1,
        slice_append_left _ _ _ _ (by simp), slice_all _ _ (by simp), natLe_le 4 _ h.2]
    change (instructionAt (1 :: (i ++ (le 4 t.length ++ t)))).isSome = true
    rw [instructionAt, if_pos, Option.isSome_some]
    rw [hs]
    simp [h.1]
    omega
  | reclaim i =>
    change (instructionAt (2 :: i)).isSome = true
    have hl : i.length = 32 := h
    rw [instructionAt, if_pos hl, Option.isSome_some]

/-- The derived decoder and the fixed offsets read the same instructions. -/
theorem instruction_fromSlice (b : Bytes) :
    SettlementInstruction.codec.fromSlice b = instructionAt b := by
  apply Option.ext
  intro x
  constructor
  · intro h
    obtain ⟨hv,hb⟩ := (SettlementInstruction.codec.fromSlice_iff b x).mp h
    obtain ⟨y,hy⟩ := Option.isSome_iff_exists.mp (instructionAt_of_encode x hv)
    rw [← hb] at hy
    have hx := (SettlementInstruction.codec.fromSlice_iff b y).mpr (instructionAt_encode b y hy)
    rw [hy, ← hx, h]
  · intro h
    exact (SettlementInstruction.codec.fromSlice_iff b x).mpr (instructionAt_encode b x h)

/-! ## The effect of a call -/

def seeds (settlementId : Bytes) : List Bytes := [Deployed.seed,settlementId]

def IsSettlement (H : Host) (settlementId : Bytes) (k : Pubkey) (bump : UInt8) : Prop :=
  H.findProgramAddress (seeds settlementId) H.programId = some (k,bump)

def newSettlement (depositor : Pubkey) (d : Bytes) (bump : UInt8) : Bytes :=
  Settlement.codec.encode ⟨depositor,u64At d 32,slice d 40 32,i64At d 72,bump⟩

def createAct (E : Env) (depositor settlement : Pubkey) (amount : ℕ) (settlementId : Bytes)
    (bump : UInt8) : Act :=
  .invoke (.createAccount depositor settlement amount 81 E.programId)
    (some (bumped (seeds settlementId) bump))

inductive Settled (E : Env) (s : Ledger) : Bytes → Ledger → Prop
  | deposit (d : Bytes) (depositor settlement system : AccountInfo) (rest : List AccountInfo)
      (bump : UInt8) (s₁ s' : Ledger) (hl : d.length = 80)
      (ha : E.accounts = depositor :: settlement :: system :: rest)
      (hs : depositor.isSigner = true)
      (hp : IsSettlement E.host (slice d 0 32) settlement.key bump)
      (hc : (createAct E depositor.key settlement.key (u64At d 32) (slice d 0 32) bump).effect E s =
        some s₁)
      (hw : (Act.write settlement.key (newSettlement depositor.key d bump)).effect E s₁ = some s') :
      Settled E s (0 :: d) s'
  | claim (d : Bytes) (beneficiary settlement : AccountInfo) (rest : List AccountInfo)
      (bump : UInt8) (s' : Ledger) (hl : 36+saltLen d ≤ d.length)
      (ha : E.accounts = beneficiary :: settlement :: rest) (hs : beneficiary.isSigner = true)
      (hp : IsSettlement E.host (slice d 0 32) settlement.key bump)
      (ho : (s settlement.key).owner = E.programId) (hd : 80 ≤ (s settlement.key).data.length)
      (hh : (E.host.hash (beneficiary.key.bytes ++ slice d 36 (saltLen d))).bytes =
        slice (s settlement.key).data 40 32)
      (hu : i64At (s settlement.key).data 72 ≤ E.clock)
      (hc : (Act.close settlement.key beneficiary.key).effect E s = some s') :
      Settled E s (1 :: d) s'
  | reclaim (d : Bytes) (depositor settlement : AccountInfo) (rest : List AccountInfo)
      (bump : UInt8) (s' : Ledger) (hl : d.length = 32)
      (ha : E.accounts = depositor :: settlement :: rest) (hs : depositor.isSigner = true)
      (hp : IsSettlement E.host (slice d 0 32) settlement.key bump)
      (ho : (s settlement.key).owner = E.programId) (hd : 32 ≤ (s settlement.key).data.length)
      (hk : keyAt (s settlement.key).data 0 = depositor.key)
      (hc : (Act.close settlement.key depositor.key).effect E s = some s') :
      Settled E s (2 :: d) s'

def Leaves (x : Exec Unit) (s s' : Ledger) : Prop := ∃ m, x ⟨s,[]⟩ = .ok () m ∧ m.ledger = s'

theorem leaves_iff (x : Exec Unit) (s s' : Ledger) :
    Leaves x s s' ↔ wp x (fun _ m => m.ledger = s') (fun _ => False) ⟨s,[]⟩ := by
  constructor
  · rintro ⟨m,hx,hm⟩
    rw [wp, hx]
    exact hm
  · intro h
    obtain ⟨_,m,hx,hm⟩ := wp_total h
    exact ⟨m,hx,hm⟩

theorem Leaves.unique {x : Exec Unit} {s s₁ s₂ : Ledger} (h₁ : Leaves x s s₁)
    (h₂ : Leaves x s s₂) : s₁ = s₂ := by
  obtain ⟨m₁,hx₁,rfl⟩ := h₁
  obtain ⟨m₂,hx₂,rfl⟩ := h₂
  rw [hx₁] at hx₂
  cases hx₂
  rfl

section
variable {E : Env} {s s' : Ledger}

theorem newSettlement_length (depositor : Pubkey) (d : Bytes) (bump : UInt8) (h : d.length = 80) :
    (newSettlement depositor d bump).length = 81 :=
  settlement_length _ ⟨u64At_lt d 32,slice_length d 40 32 (by omega),i64At_bounds d 72⟩

/-- The bytes written by hand are the encoding. -/
theorem patches_encode (t : Settlement) (b : Bytes) (ht : t.Valid) (hb : b.length = 81) :
    patches b (Deployed.settlementFields t.depositor t.amount t.beneficiaryCommitment t.unlockTime
      t.bump) = Settlement.codec.encode t := by
  have hf : Deployed.settlementFields t.depositor t.amount t.beneficiaryCommitment t.unlockTime
      t.bump = abut 0 [t.depositor.bytes,le 8 t.amount,t.beneficiaryCommitment,
        leInt 8 t.unlockTime,[t.bump]] := by
    simp [Deployed.settlementFields, abut, ht.2.1, Deployed.oDepositor, Deployed.oAmount,
      Deployed.oCommit, Deployed.oUnlock, Deployed.oBump]
  have hn : Settlement.codec.encode t = [t.depositor.bytes,le 8 t.amount,t.beneficiaryCommitment,
      leInt 8 t.unlockTime,[t.bump]].flatten := by
    change t.depositor.bytes ++ (le 8 t.amount ++ (t.beneficiaryCommitment ++
      (leInt 8 t.unlockTime ++ [t.bump]))) = _
    simp
  have hl := settlement_length t ht
  rw [hf, patches_abut _ _ _ (by rw [← hn, hl, hb]), ← hn, patch, List.drop_of_length_le]
  · simp
  · rw [hl, hb]

theorem patches_newSettlement (depositor : Pubkey) (d b : Bytes) (bump : UInt8) (h : d.length = 80)
    (hb : b.length = 81) :
    patches b (Deployed.settlementFields depositor (u64At d 32) (slice d 40 32) (i64At d 72) bump) =
      newSettlement depositor d bump :=
  patches_encode ⟨depositor,u64At d 32,slice d 40 32,i64At d 72,bump⟩ b
    ⟨u64At_lt d 32,slice_length d 40 32 (by omega),i64At_bounds d 72⟩ hb

theorem created_empty (hs : SystemRules E.host) {depositor settlement : Pubkey} {amount : ℕ}
    {settlementId : Bytes} {bump : UInt8}
    (h : (createAct E depositor settlement amount settlementId bump).effect E s = some s') :
    Vacant s settlement ∧ (s settlement).lamports = 0 ∧
      s' settlement = ⟨amount,E.programId,zeros 81⟩ := by
  simp only [createAct, Act.effect] at h
  split at h
  · obtain ⟨hv,hl,ha,-⟩ := hs.create _ _ _ _ _ _ _ h
    exact ⟨hv,hl,ha⟩
  · cases h

def ExactAccounts (E : Env) : Bytes → Prop
  | 0 :: _ => E.accounts.length = 3
  | _ => E.accounts.length = 2

/-! ## Success of the single operations -/

section
variable {α : Type} {m : Machine}

theorem total_findAddress (ss : List Bytes) {Q : Pubkey × UInt8 → Machine → Prop} :
    wp (Swap.findAddress E ss) Q (fun _ => False) m ↔
      ∃ a, E.host.findProgramAddress ss E.programId = some a ∧ Q a m := by
  rw [Swap.findAddress, total_unwrap]

end

theorem close_fits (k dest : Pubkey) (h : (Act.close k dest).effect E s = some s') :
    (s dest).lamports+(s k).lamports ≤ u64Max := by
  simp only [Act.effect] at h
  split at h
  · rename_i hc
    exact hc.2.2.2.2
  · cases h

theorem deployed_deposit (hs : SystemRules E.host) (d : Bytes) :
    Leaves (Deployed.deposit E d) s s' ↔
      Settled E s (0 :: d) s' ∧ ExactAccounts E (0 :: d) := by
  rw [leaves_iff, Deployed.deposit]
  constructor
  · intro h
    simp only [wp_bind, total_failIf, not_not] at h
    obtain ⟨hl,h⟩ := h
    split at h
    · rename_i depositor settlement system ha
      simp only [wp_bind, total_failIf, total_findAddress, total_perform, wp_dataOf, next_ledger,
        not_not, Prod.exists, Bool.not_eq_false] at h
      obtain ⟨hsg,pda,bump,hp,rfl,s₁,hc,s₂,hw,rfl⟩ := h
      obtain ⟨-,-,he⟩ := created_empty hs hc
      rw [he, patches_newSettlement _ _ _ _ hl (zeros_length 81)] at hw
      exact ⟨.deposit d depositor settlement system [] bump s₁ s₂ hl ha hsg hp hc hw,
        congrArg List.length ha⟩
    · exact h.elim
  · rintro ⟨hset,hex⟩
    cases hset with
    | deposit _ depositor settlement system rest bump s₁ _ hl ha hsg hp hc hw =>
      change E.accounts.length = 3 at hex
      rw [ha] at hex
      obtain rfl : rest = [] := by simpa using hex
      obtain ⟨-,-,he⟩ := created_empty hs hc
      simp only [wp_bind, total_failIf, not_not]
      refine ⟨hl,?_⟩
      rw [ha]
      simp only [wp_bind, total_failIf, total_findAddress, total_perform, wp_dataOf, next_ledger,
        not_not, Prod.exists, Bool.not_eq_false]
      refine ⟨hsg,_,bump,hp,rfl,s₁,hc,s',?_,rfl⟩
      rwa [he, patches_newSettlement _ _ _ _ hl (zeros_length 81)]

theorem verifyPda_total {m : Machine} (settlement : AccountInfo) (settlementId : Bytes)
    {Q : Unit → Machine → Prop} :
    wp (Deployed.verifyPda E settlement settlementId) Q (fun _ => False) m ↔
      (∃ bump, IsSettlement E.host settlementId settlement.key bump) ∧
        (m.ledger settlement.key).owner = E.programId ∧ Q () m := by
  simp only [Deployed.verifyPda, wp_bind, total_findAddress, total_failIf, wp_ownerOf, not_not,
    Prod.exists, IsSettlement, seeds]
  constructor
  · rintro ⟨_,bump,hp,rfl,ho,hq⟩
    exact ⟨⟨bump,hp⟩,ho,hq⟩
  · rintro ⟨⟨bump,hp⟩,ho,hq⟩
    exact ⟨_,bump,hp,rfl,ho,hq⟩

theorem close_total {m : Machine} (account dest : AccountInfo) :
    wp (Deployed.close E account dest) (fun _ m => m.ledger = s') (fun _ => False) m ↔
      (Act.close account.key dest.key).effect E m.ledger = some s' := by
  simp only [Deployed.close, wp_bind, wp_get, total_failIf, total_perform, next_ledger, not_lt]
  constructor
  · rintro ⟨-,_,hc,rfl⟩
    exact hc
  · exact fun hc => ⟨close_fits _ _ hc,_,hc,rfl⟩

theorem deployed_claim (d : Bytes) :
    Leaves (Deployed.claim E d) s s' ↔ Settled E s (1 :: d) s' ∧ ExactAccounts E (1 :: d) := by
  rw [leaves_iff, Deployed.claim]
  constructor
  · intro h
    simp only [wp_bind, total_failIf] at h
    obtain ⟨-,hl,h⟩ := h
    split at h
    · rename_i beneficiary settlement ha
      simp only [wp_bind, total_failIf, verifyPda_total, close_total, wp_dataOf, not_not, not_lt,
        Bool.not_eq_false] at h
      obtain ⟨hsg,⟨bump,hp⟩,ho,-,hh,hd,hu,hc⟩ := h
      exact ⟨.claim d beneficiary settlement [] bump s' (not_lt.mp hl) ha hsg hp ho hd hh hu hc,
        congrArg List.length ha⟩
    · exact h.elim
  · rintro ⟨hset,hex⟩
    cases hset with
    | claim _ beneficiary settlement rest bump _ hl ha hsg hp ho hd hh hu hc =>
      change E.accounts.length = 2 at hex
      rw [ha] at hex
      obtain rfl : rest = [] := by simpa using hex
      simp only [wp_bind, total_failIf]
      refine ⟨by omega,not_lt.mpr hl,?_⟩
      rw [ha]
      simp only [wp_bind, total_failIf, verifyPda_total, close_total, wp_dataOf, not_not, not_lt,
        Bool.not_eq_false]
      have hd' : Deployed.oCommit+32 ≤ (s settlement.key).data.length := le_trans (by decide) hd
      exact ⟨hsg,⟨bump,hp⟩,ho,hd',hh,hd,hu,hc⟩

theorem deployed_reclaim (d : Bytes) :
    Leaves (Deployed.reclaim E d) s s' ↔ Settled E s (2 :: d) s' ∧ ExactAccounts E (2 :: d) := by
  rw [leaves_iff, Deployed.reclaim]
  constructor
  · intro h
    simp only [wp_bind, total_failIf, not_not] at h
    obtain ⟨hl,h⟩ := h
    split at h
    · rename_i depositor settlement ha
      simp only [wp_bind, total_failIf, verifyPda_total, close_total, wp_dataOf, not_not, not_lt,
        Bool.not_eq_false] at h
      obtain ⟨hsg,⟨bump,hp⟩,ho,hd,hk,hc⟩ := h
      exact ⟨.reclaim d depositor settlement [] bump s' hl ha hsg hp ho hd (keyAt_eq _ _ _ hk) hc,
        congrArg List.length ha⟩
    · exact h.elim
  · rintro ⟨hset,hex⟩
    cases hset with
    | reclaim _ depositor settlement rest bump _ hl ha hsg hp ho hd hk hc =>
      change E.accounts.length = 2 at hex
      rw [ha] at hex
      obtain rfl : rest = [] := by simpa using hex
      simp only [wp_bind, total_failIf, not_not]
      refine ⟨hl,?_⟩
      rw [ha]
      simp only [wp_bind, total_failIf, verifyPda_total, close_total, wp_dataOf, not_not, not_lt,
        Bool.not_eq_false]
      have hk' : slice (s settlement.key).data Deployed.oDepositor 32 = depositor.key.bytes := by
        rw [← hk, keyAt_bytes _ _ hd]
        rfl
      exact ⟨hsg,⟨bump,hp⟩,ho,hd,hk',hc⟩

/-- The deployed build does what is settled, on the exact account list. -/
theorem deployed_leaves (hs : SystemRules E.host) (b : Bytes) :
    Leaves (Deployed.process E b) s s' ↔ Settled E s b s' ∧ ExactAccounts E b := by
  unfold Deployed.process
  split
  · constructor
    · rintro ⟨m,hm,-⟩
      cases hm
    · rintro ⟨h,-⟩
      cases h
  · split
    · exact deployed_deposit hs _
    · exact deployed_claim _
    · exact deployed_reclaim _
    · rename_i tag rest h₀ h₁ h₂
      constructor
      · rintro ⟨m,hm,-⟩
        cases hm
      · rintro ⟨h,-⟩
        cases h <;> contradiction

def SettlementSized (E : Env) (s : Ledger) : Prop :=
  ∀ a, E.accounts[1]? = some a → (s a.key).data.length = 81

/-- What only the readable build asks for: a deposit above the rent floor, a
payload without trailing bytes, and a settlement of the exact size. -/
def StrictInput (E : Env) (s : Ledger) : Bytes → Prop
  | 0 :: d => E.host.minimumBalance 81 ≤ u64At d 32
  | 1 :: d => d.length = 36+saltLen d ∧ SettlementSized E s
  | _ => SettlementSized E s

theorem readable_deposit (hs : SystemRules E.host) (d : Bytes) (hl : d.length = 80) :
    Leaves (Readable.deposit E (slice d 0 32) (u64At d 32) (slice d 40 32) (i64At d 72)) s s' ↔
      Settled E s (0 :: d) s' ∧ StrictInput E s (0 :: d) := by
  have hwrite : ∀ depositor bump, patch (zeros 81) 0 (newSettlement depositor d bump) =
      newSettlement depositor d bump := by
    intro depositor bump
    rw [patch, newSettlement_length depositor d bump hl]
    simp [zeros]
  rw [leaves_iff, Readable.deposit]
  constructor
  · intro h
    split at h
    · rename_i depositor settlement system rest ha
      simp only [wp_bind, total_failIf, Readable.settlementPda, total_findAddress, total_perform,
        wp_dataOf, wp_get, next_ledger, not_not, not_lt, Prod.exists, Bool.not_eq_false] at h
      obtain ⟨hsg,pda,bump,hp,rfl,-,hm,s₁,hc,s₂,hw,rfl⟩ := h
      obtain ⟨-,-,he⟩ := created_empty hs hc
      rw [he] at hw
      change (Act.write settlement.key (patch (zeros 81) 0
        (newSettlement depositor.key d bump))).effect E s₁ = some s₂ at hw
      rw [hwrite] at hw
      exact ⟨.deposit d depositor settlement system rest bump s₁ s₂ hl ha hsg hp hc hw,hm⟩
    · exact h.elim
  · rintro ⟨hset,hm⟩
    cases hset with
    | deposit _ depositor settlement system rest bump s₁ _ hl ha hsg hp hc hw =>
      obtain ⟨hv,hz,he⟩ := created_empty hs hc
      rw [ha]
      simp only [wp_bind, total_failIf, Readable.settlementPda, total_findAddress, total_perform,
        wp_dataOf, wp_get, next_ledger, not_not, not_lt, Prod.exists, Bool.not_eq_false]
      refine ⟨hsg,_,bump,hp,rfl,?_,hm,s₁,hc,s',?_,rfl⟩
      · rw [hz, hv.2]
        simp
      · rw [he]
        change (Act.write settlement.key (patch (zeros 81) 0
          (newSettlement depositor.key d bump))).effect E s₁ = some s'
        rwa [hwrite]

theorem load_total {m : Machine} (settlement : AccountInfo) (settlementId : Bytes)
    {Q : Settlement → Machine → Prop} :
    wp (Readable.load E settlement settlementId) Q (fun _ => False) m ↔
      (∃ bump, IsSettlement E.host settlementId settlement.key bump) ∧
        (m.ledger settlement.key).owner = E.programId ∧
        (m.ledger settlement.key).data.length = 81 ∧
        Q (settlementAt (m.ledger settlement.key).data) m := by
  simp only [Readable.load, Readable.settlementPda, wp_bind, total_findAddress, total_failIf,
    total_unwrap, wp_ownerOf, wp_dataOf, settlement_fromSlice, not_not, Prod.exists, IsSettlement,
    seeds]
  constructor
  · rintro ⟨_,bump,hp,rfl,ho,_,⟨hl,rfl⟩,hq⟩
    exact ⟨⟨bump,hp⟩,ho,hl,hq⟩
  · rintro ⟨⟨bump,hp⟩,ho,hl,hq⟩
    exact ⟨_,bump,hp,rfl,ho,_,⟨hl,rfl⟩,hq⟩

theorem readable_claim (d : Bytes) (hl : d.length = 36+saltLen d) :
    Leaves (Readable.claim E (slice d 0 32) (slice d 36 (saltLen d))) s s' ↔
      Settled E s (1 :: d) s' ∧ StrictInput E s (1 :: d) := by
  rw [leaves_iff, Readable.claim]
  constructor
  · intro h
    split at h
    · rename_i beneficiary settlement rest ha
      simp only [wp_bind, total_failIf, load_total, not_not, not_lt, Bool.not_eq_false] at h
      obtain ⟨hsg,⟨bump,hp⟩,ho,hz,hh,hu,hc⟩ := h
      refine ⟨.claim d beneficiary settlement rest bump s' hl.ge ha hsg hp ho (by omega) hh hu
        (close_total _ _ |>.mp hc),hl,?_⟩
      intro a h₁
      rw [ha] at h₁
      cases h₁
      exact hz
    · exact h.elim
  · rintro ⟨hset,-,hz⟩
    cases hset with
    | claim _ beneficiary settlement rest bump _ hl ha hsg hp ho hd hh hu hc =>
      rw [ha]
      simp only [wp_bind, total_failIf, load_total, not_not, not_lt, Bool.not_eq_false]
      exact ⟨hsg,⟨bump,hp⟩,ho,hz _ (by rw [ha]; rfl),hh,hu,(close_total _ _).mpr hc⟩

theorem readable_reclaim (d : Bytes) (hl : d.length = 32) :
    Leaves (Readable.reclaim E (slice d 0 32)) s s' ↔
      Settled E s (2 :: d) s' ∧ StrictInput E s (2 :: d) := by
  rw [leaves_iff, Readable.reclaim]
  constructor
  · intro h
    split at h
    · rename_i depositor settlement rest ha
      simp only [wp_bind, total_failIf, load_total, not_not, Bool.not_eq_false] at h
      obtain ⟨hsg,⟨bump,hp⟩,ho,hz,hk,hc⟩ := h
      refine ⟨.reclaim d depositor settlement rest bump s' hl ha hsg hp ho (by omega) hk
        (close_total _ _ |>.mp hc),?_⟩
      intro a h₁
      rw [ha] at h₁
      cases h₁
      exact hz
    · exact h.elim
  · rintro ⟨hset,hz⟩
    cases hset with
    | reclaim _ depositor settlement rest bump _ hl ha hsg hp ho hd hk hc =>
      rw [ha]
      simp only [wp_bind, total_failIf, load_total, not_not, Bool.not_eq_false]
      exact ⟨hsg,⟨bump,hp⟩,ho,hz _ (by rw [ha]; rfl),hk,(close_total _ _).mpr hc⟩

theorem Settled.payload {b : Bytes} (h : Settled E s b s') (hst : StrictInput E s b) :
    (instructionAt b).isSome = true := by
  cases h with
  | deposit d _ _ _ _ _ _ _ hl => simp [instructionAt, hl]
  | claim d _ _ _ _ _ hl =>
    simp [instructionAt, hst.1]
  | reclaim d _ _ _ _ _ hl => simp [instructionAt, hl]

/-- The readable build does what is settled, on strict input. -/
theorem readable_leaves (hs : SystemRules E.host) (b : Bytes) :
    Leaves (Readable.process E b) s s' ↔ Settled E s b s' ∧ StrictInput E s b := by
  rw [leaves_iff, Readable.process, wp_bind, total_unwrap, instruction_fromSlice]
  constructor
  · rintro ⟨x,hx,h⟩
    rw [← leaves_iff] at h
    unfold instructionAt at hx
    split at hx
    · split at hx
      · rename_i d hl
        cases hx
        exact (readable_deposit hs d hl).mp h
      · cases hx
    · split at hx
      · rename_i d hl
        cases hx
        exact (readable_claim d hl.2).mp h
      · cases hx
    · split at hx
      · rename_i d hl
        cases hx
        exact (readable_reclaim d hl).mp h
      · cases hx
    · cases hx
  · rintro ⟨h,hst⟩
    obtain ⟨x,hx⟩ := Option.isSome_iff_exists.mp (h.payload hst)
    refine ⟨x,hx,?_⟩
    rw [← leaves_iff]
    cases h with
    | deposit d a₁ a₂ a₃ r bump s₁ _ hl =>
      rw [instructionAt, if_pos hl] at hx
      cases hx
      exact (readable_deposit hs d hl).mpr ⟨.deposit d a₁ a₂ a₃ r bump s₁ s' hl ‹_› ‹_› ‹_› ‹_› ‹_›,
        hst⟩
    | claim d a₁ a₂ r bump _ hl ha hsg hp ho hd hh hu hc =>
      rw [instructionAt, if_pos ⟨by omega,hst.1⟩] at hx
      cases hx
      exact (readable_claim d hst.1).mpr ⟨.claim d a₁ a₂ r bump s' hl ha hsg hp ho hd hh hu hc,hst⟩
    | reclaim d a₁ a₂ r bump _ hl ha hsg hp ho hd hk hc =>
      rw [instructionAt, if_pos hl] at hx
      cases hx
      exact (readable_reclaim d hl).mpr ⟨.reclaim d a₁ a₂ r bump s' hl ha hsg hp ho hd hk hc,hst⟩

end

end Xete.Tab
