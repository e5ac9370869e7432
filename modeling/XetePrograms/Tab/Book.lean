import XetePrograms.Solana.Lamports
import XetePrograms.Swap.Run
import XetePrograms.Tab.Counter

/-!
# Runs of the deployed settlement program

A book keeps every deposit from its own call until it is paid out. The ledger
agrees with the book in every reachable state, although the program only sees
bytes: a settlement that is closed reads as one whose commitment is zero.
-/

set_option autoImplicit false

namespace Xete.Tab
open Xete.Octets Xete.Chain Xete.Runtime Xete.Rules
open Xete.Swap (reap)
open Readable (Settlement)

structure Deposit where
  depositor : Pubkey
  amount : ℕ
  commitment : Bytes
  unlockTime : ℤ

/-- The call runs on the host `H`, signed by no address of the program and not
by the zero key. -/
structure On (H : Host) (E : Env) : Prop where
  host : E.host = H
  wellformed : Wellformed E
  notZero : ∀ a ∈ E.accounts, a.isSigner = true → a.key ≠ zeroKey

inductive Action where
  | call (E : Env) (b : Bytes)
  | transfer (source dest : Pubkey) (n : ℕ)
  | reap

/-- A successful call, a transfer of lamports by a third party, or the end of a
transaction. -/
inductive Step (H : Host) : Action → Ledger → Ledger → Prop
  | call (E : Env) (b : Bytes) (s s' : Ledger) (ho : On H E)
      (h : Leaves (Deployed.process E b) s s') : Step H (.call E b) s s'
  | transfer (source dest : Pubkey) (n : ℕ) (s s' : Ledger) (hp : ¬H.IsPda source)
      (h : H.process (.transferLamports source dest n) s = some s') :
      Step H (.transfer source dest n) s s'
  | reap (s : Ledger) : Step H .reap s (reap s)

/-- The deposits that are open, numbered in the order of their calls, and the
numbers of those that were paid out. -/
structure Book where
  next : ℕ
  opened : Pubkey → Option (ℕ × Deposit)
  paid : List ℕ

namespace Book

def empty : Book := ⟨0,fun _ => none,[]⟩

def deposit (b : Book) (k : Pubkey) (p : Deposit) : Book :=
  ⟨b.next+1,Function.update b.opened k (some (b.next,p)),b.paid⟩

def pay (b : Book) (k : Pubkey) : Book :=
  match b.opened k with
  | some (n,_) => ⟨b.next,Function.update b.opened k none,n :: b.paid⟩
  | none => b

def drop (b : Book) (s : Ledger) : Book :=
  { b with opened := fun k => if (s k).lamports = 0 then none else b.opened k }

def after (b : Book) (s : Ledger) : Action → Book
  | .call E (0 :: d) => match E.accounts with
    | depositor :: settlement :: _ => b.deposit settlement.key
        ⟨depositor.key,u64At d 32,slice d 40 32,i64At d 72⟩
    | _ => b
  | .call E _ => match E.accounts with
    | _ :: settlement :: _ => b.pay settlement.key
    | _ => b
  | .transfer .. => b
  | .reap => b.drop s

end Book

def Run (H : Host) : Ledger × Book → Ledger × Book → Prop :=
  Relation.ReflTransGen fun x y => ∃ a, Step H a x.1 y.1 ∧ y.2 = x.2.after x.1 a

theorem Run.step {H : Host} {x : Ledger × Book} {s s' : Ledger} {b : Book} {a : Action}
    (h : Run H x (s,b)) (ha : Step H a s s') : Run H x (s',b.after s a) := h.tail ⟨a,ha,rfl⟩

def Records (d : Bytes) (p : Deposit) : Prop :=
  d.length = 81 ∧ keyAt d Deployed.oDepositor = p.depositor ∧
    u64At d Deployed.oAmount = p.amount ∧ slice d Deployed.oCommit 32 = p.commitment ∧
    i64At d Deployed.oUnlock = p.unlockTime

structure Tracks (H : Host) (s : Ledger) (b : Book) : Prop where
  opened : ∀ k n p, b.opened k = some (n,p) → (s k).owner = H.programId ∧ Records (s k).data p
  closed : ∀ k, (s k).owner = H.programId → b.opened k = none → (s k).data = zeros 81
  number : ∀ k n p, b.opened k = some (n,p) → n < b.next ∧ n ∉ b.paid
  apart : ∀ k k' n p p', b.opened k = some (n,p) → b.opened k' = some (n,p') → k = k'
  paid : b.paid.Nodup ∧ ∀ n ∈ b.paid, n < b.next

structure Sweeps (s s' : Ledger) (k dest : Pubkey) : Prop where
  ne : k ≠ dest
  emptied : (s' k).lamports = 0
  paid : (s' dest).lamports = (s dest).lamports+(s k).lamports
  others : ∀ a, a ≠ k → a ≠ dest → (s' a).lamports = (s a).lamports

/-- The call with the payload `b` pays out the deposit `p` at `k`: to a signer
who shows a preimage of the commitment, from the unlock time on, or back to the
depositor, who signs. -/
inductive PaysOut (E : Env) (k : Pubkey) (p : Deposit) (s s' : Ledger) : Bytes → Prop
  | claim (d : Bytes) (beneficiary settlement : AccountInfo)
      (ha : E.accounts = [beneficiary,settlement]) (hk : settlement.key = k)
      (hs : beneficiary.isSigner = true)
      (hh : (E.host.hash (beneficiary.key.bytes ++ slice d 36 (saltLen d))).bytes = p.commitment)
      (hu : p.unlockTime ≤ E.clock) (hp : Sweeps s s' k beneficiary.key) :
      PaysOut E k p s s' (1 :: d)
  | reclaim (d : Bytes) (depositor settlement : AccountInfo)
      (ha : E.accounts = [depositor,settlement]) (hk : settlement.key = k)
      (hs : depositor.isSigner = true) (hd : depositor.key = p.depositor)
      (hp : Sweeps s s' k depositor.key) : PaysOut E k p s s' (2 :: d)

/-! ## The steps of the book -/

section
variable {H : Host} {E : Env} {s s' : Ledger} {b : Book} {k : Pubkey} {p : Deposit} {n : ℕ}

theorem newSettlement_records (depositor : Pubkey) (d : Bytes) (bump : UInt8) (h : d.length = 80) :
    Records (newSettlement depositor d bump)
      ⟨depositor,u64At d 32,slice d 40 32,i64At d 72⟩ := by
  have hv : Settlement.Valid ⟨depositor,u64At d 32,slice d 40 32,i64At d 72,bump⟩ :=
    ⟨u64At_lt d 32,slice_length d 40 32 (by omega),i64At_bounds d 72⟩
  have hf := (Settlement.codec.fromSlice_iff _ _).mpr ⟨hv,rfl⟩
  obtain ⟨hl,he⟩ := (settlement_fromSlice _ _).mp hf
  simp only [settlementAt, Settlement.mk.injEq] at he
  obtain ⟨h₁,h₂,h₃,h₄,-⟩ := he
  exact ⟨hl,h₁.symm,h₂.symm,h₃.symm,h₄.symm⟩

theorem Tracks.length (h : Tracks H s b) (hk : (s k).owner = H.programId) :
    (s k).data.length = 81 := by
  cases ho : b.opened k with
  | none => rw [h.closed k hk ho, zeros_length]
  | some x => exact (h.opened k x.1 x.2 ho).2.1

/-- Nothing is recorded at an address that is not the program's. -/
theorem Tracks.unopened (h : Tracks H s b) (hk : (s k).owner ≠ H.programId) :
    b.opened k = none := by
  cases ho : b.opened k with
  | none => rfl
  | some x => exact (hk (h.opened k x.1 x.2 ho).1).elim

theorem Tracks.congr (h : Tracks H s b) (ho : ∀ a, (s' a).owner = (s a).owner)
    (hd : ∀ a, (s' a).data = (s a).data) : Tracks H s' b where
  opened k n p hb := by
    rw [ho, hd]
    exact h.opened k n p hb
  closed k hk hb := by
    rw [hd]
    exact h.closed k ((ho k).symm.trans hk) hb
  number := h.number
  apart := h.apart
  paid := h.paid

theorem Tracks.drop (h : Tracks H s b) (hn : H.programId ≠ systemId) :
    Tracks H (reap s) (b.drop s) where
  opened k n p hb := by
    simp only [Book.drop] at hb
    split at hb
    · cases hb
    · rename_i hl
      rw [Swap.reap_live (Nat.pos_of_ne_zero hl)]
      exact h.opened k n p hb
  closed k hk hb := by
    simp only [Book.drop] at hb
    by_cases hl : (s k).lamports = 0
    · simp only [reap, hl, if_true] at hk
      exact (hn hk.symm).elim
    · rw [Swap.reap_live (Nat.pos_of_ne_zero hl)] at hk ⊢
      rw [if_neg hl] at hb
      exact h.closed k hk hb
  number k n p hb := by
    simp only [Book.drop] at hb
    split at hb
    · cases hb
    · exact h.number k n p hb
  apart k k' n p p' hb hb' := by
    simp only [Book.drop] at hb hb'
    split at hb
    · cases hb
    · split at hb'
      · cases hb'
      · exact h.apart k k' n p p' hb hb'
  paid := h.paid

/-- A deposit takes a fresh number. -/
theorem Tracks.deposit (h : Tracks H s b) (hv : (s k).owner ≠ H.programId)
    (ho : (s' k).owner = H.programId) (hr : Records (s' k).data p)
    (hr' : ∀ a, a ≠ k → (s' a).owner = (s a).owner ∧ (s' a).data = (s a).data) :
    Tracks H s' (b.deposit k p) where
  opened a n q hb := by
    by_cases ha : a = k
    · subst ha
      simp only [Book.deposit, Function.update_self, Option.some.injEq, Prod.mk.injEq] at hb
      obtain ⟨-,rfl⟩ := hb
      exact ⟨ho,hr⟩
    · simp only [Book.deposit, Function.update_of_ne ha] at hb
      rw [(hr' a ha).1, (hr' a ha).2]
      exact h.opened a n q hb
  closed a hk hb := by
    by_cases ha : a = k
    · subst ha
      simp [Book.deposit] at hb
    · simp only [Book.deposit, Function.update_of_ne ha] at hb
      rw [(hr' a ha).1] at hk
      rw [(hr' a ha).2]
      exact h.closed a hk hb
  number a n q hb := by
    by_cases ha : a = k
    · subst ha
      simp only [Book.deposit, Function.update_self, Option.some.injEq, Prod.mk.injEq] at hb
      obtain ⟨rfl,-⟩ := hb
      exact ⟨Nat.lt_succ_self _,fun hm => (h.paid.2 _ hm).false⟩
    · simp only [Book.deposit, Function.update_of_ne ha] at hb
      obtain ⟨hlt,hm⟩ := h.number a n q hb
      exact ⟨hlt.trans (Nat.lt_succ_self _),hm⟩
  apart a a' n q q' hb hb' := by
    by_cases ha : a = k <;> by_cases ha' : a' = k
    · rw [ha, ha']
    · subst ha
      simp only [Book.deposit, Function.update_self, Function.update_of_ne ha', Option.some.injEq,
        Prod.mk.injEq] at hb hb'
      obtain ⟨rfl,-⟩ := hb
      exact ((h.number a' _ q' hb').1.false).elim
    · subst ha'
      simp only [Book.deposit, Function.update_self, Function.update_of_ne ha, Option.some.injEq,
        Prod.mk.injEq] at hb hb'
      obtain ⟨rfl,-⟩ := hb'
      exact ((h.number a _ q hb).1.false).elim
    · simp only [Book.deposit, Function.update_of_ne ha, Function.update_of_ne ha'] at hb hb'
      exact h.apart a a' n q q' hb hb'
  paid := ⟨h.paid.1,fun n hn => (h.paid.2 n hn).trans (Nat.lt_succ_self _)⟩

/-- A payout moves the number of the deposit to the numbers paid. -/
theorem Tracks.pay (h : Tracks H s b) (hk : b.opened k = some (n,p))
    (ho : ∀ a, (s' a).owner = (s a).owner) (hz : (s' k).data = zeros 81)
    (hd : ∀ a, a ≠ k → (s' a).data = (s a).data) : Tracks H s' (b.pay k) := by
  have hpay : b.pay k = ⟨b.next,Function.update b.opened k none,n :: b.paid⟩ := by
    rw [Book.pay, hk]
  obtain ⟨hlt,hm⟩ := h.number k n p hk
  have hother : ∀ a q m, Function.update b.opened k none a = some (m,q) →
      a ≠ k ∧ b.opened a = some (m,q) := by
    intro a q m ha
    have hne : a ≠ k := by
      rintro rfl
      simp at ha
    rw [Function.update_of_ne hne] at ha
    exact ⟨hne,ha⟩
  rw [hpay]
  constructor
  · intro a m q hb
    obtain ⟨hne,hb⟩ := hother a q m hb
    rw [ho, hd a hne]
    exact h.opened a m q hb
  · intro a hp hb
    by_cases ha : a = k
    · rw [ha, hz]
    · rw [hd a ha]
      rw [ho] at hp
      simp only [Function.update_of_ne ha] at hb
      exact h.closed a hp hb
  · intro a m q hb
    obtain ⟨hne,hb⟩ := hother a q m hb
    obtain ⟨hlt,hm'⟩ := h.number a m q hb
    refine ⟨hlt,?_⟩
    rintro (_ | ⟨_,hmem⟩)
    · exact hne (h.apart a k n q p hb hk)
    · exact hm' hmem
  · intro a a' m q q' hb hb'
    exact h.apart a a' m q q' (hother a q m hb).2 (hother a' q' m hb').2
  · refine ⟨List.nodup_cons.mpr ⟨hm,h.paid.1⟩,?_⟩
    rintro m (_ | ⟨_,hmem⟩)
    · exact hlt
    · exact h.paid.2 m hmem

end

end Xete.Tab
