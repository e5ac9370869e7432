import Mathlib.Logic.Relation
import XetePrograms.Solana.Frame
import XetePrograms.Swap.Seeds

/-!
# Runs of the program

A step is a successful call, anything that other programs do without a
signature of an address of this one, or the end of a transaction, where the
accounts without lamports are removed. A failed call leaves the ledger as it was
and is no step.
-/

set_option autoImplicit false

namespace Xete.Swap
open Xete.Octets Xete.Chain Xete.Token Xete.Runtime Xete.Rules

structure Call where
  env : Env
  data : Bytes

/-- The call runs on the host `H`, as the runtime lets it. -/
structure Call.On (c : Call) (H : Host) : Prop where
  host : c.env.host = H
  wellformed : Wellformed c.env

/-- The machine after a call that succeeds. -/
def Call.result (c : Call) (s : Ledger) : Option Machine :=
  match process c.env c.data ⟨s,[]⟩ with
  | .ok _ m => some m
  | .error _ _ => none

theorem Call.result_ok {c : Call} {s : Ledger} {m : Machine} (h : c.result s = some m) :
    process c.env c.data ⟨s,[]⟩ = .ok () m := by
  unfold Call.result at h
  split at h
  · rename_i u m' hp
    cases h
    exact hp
  · cases h

/-- The ledger without the accounts that hold no lamports. -/
def reap (s : Ledger) : Ledger := fun a => if (s a).lamports = 0 then ⟨0,systemId,[]⟩ else s a

theorem reap_live {s : Ledger} {a : Pubkey} (h : 0 < (s a).lamports) : reap s a = s a := by
  simp [reap, h.ne']

inductive Action where
  | call (c : Call)
  | outside
  | reap

inductive Step (H : Host) : Action → Ledger → Ledger → Prop
  | call (c : Call) (s : Ledger) (m : Machine) (ho : c.On H) (hr : c.result s = some m) :
      Step H (.call c) s m.ledger
  | outside (s s' : Ledger) (hf : Frame H (fun _ => False) (fun _ => False) s s') :
      Step H .outside s s'
  | reap (s : Ledger) : Step H .reap s (reap s)

/-- Another program is called without a signature of an address of this one. -/
theorem Step.of_process {H : Host} {c : Cpi} {s s' : Ledger} (hf : Confined H)
    (hp : c.program ≠ H.programId) (hk : ∀ a ∈ c.signers, ¬H.IsPda a)
    (h : H.process c s = some s') :
    Step H .outside s s' :=
  .outside _ _ ((hf c s s' hp h).mono (fun a hpda hs => (hk a hs hpda).elim) fun _ => False.elim)

/-- Other programs leave what the addresses of this one hold under the programs
of `held` where it is. -/
def UnseizedOf (H : Host) (held : Pubkey → Prop) (a : Action) (s s' : Ledger) : Prop :=
  a = .outside → HoldingsOf H held (fun _ => False) s s'

/-- What happens outside is no seizure by a permanent delegate. -/
abbrev Unseized (H : Host) (a : Action) (s s' : Ledger) : Prop :=
  UnseizedOf H (fun _ => True) a s s'

theorem unseized_call {H : Host} {held : Pubkey → Prop} {c : Call} {s s' : Ledger} :
    UnseizedOf H held (.call c) s s' := by
  rintro ⟨⟩

theorem Unseized.of_process {H : Host} {held : Pubkey → Prop} {c : Cpi} {s s' : Ledger} {a : Action}
    (hz : NoSeizureOf H held) (hp : c.program ≠ H.programId) (hk : ∀ a ∈ c.signers, ¬H.IsPda a)
    (h : H.process c s = some s') : UnseizedOf H held a s s' :=
  fun _ => (hz c s s' hp h).mono fun a hpda hs => (hk a hs hpda).elim

/-- A run whose steps all meet `ok`. -/
def Run (H : Host) (ok : Action → Ledger → Ledger → Prop) : Ledger → Ledger → Prop :=
  Relation.ReflTransGen fun s s' => ∃ a, Step H a s s' ∧ ok a s s'

/-- Every step, of any kind. -/
def AnyStep (_ : Action) (_ _ : Ledger) : Prop := True

section
variable {H : Host} {ok : Action → Ledger → Ledger → Prop} {s s' : Ledger} {P : Ledger → Prop}

/-- What one step keeps, a run keeps. -/
theorem Run.invariant (h : Run H ok s s')
    (hstep : ∀ a s s', Step H a s s' → ok a s s' → P s → P s') (hs : P s) : P s' := by
  induction h with
  | refl => exact hs
  | tail _ ha ih =>
    obtain ⟨a,ha,hok⟩ := ha
    exact hstep a _ _ ha hok ih

end

/-- Calls one after the other, each a transaction of its own. -/
def runCalls : List Call → Ledger → Option Ledger
  | [], s => some s
  | c :: cs, s => (c.result s).bind fun m => runCalls cs (reap m.ledger)

end Xete.Swap
