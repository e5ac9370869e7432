import XetePrograms.Swap.BasketTrace
import XetePrograms.Swap.ConfigTrace
import XetePrograms.Swap.OrderTrace
import XetePrograms.Swap.Seeds

/-!
# Which addresses an instruction signs for, and which accounts it changes

`MaySign` and `MayChange` say, tag by tag, for which places an instruction ever
signs and whose accounts it ever writes or closes.
-/

set_option autoImplicit false

namespace Xete.Swap
open Xete.Octets Xete.Weakest Xete.Chain Xete.Token Xete.Runtime Xete.Rules

def swapTags : List UInt8 := [0,1,2,3,5,18,19,20,21,22,23,24,25]

def listingTags : List UInt8 := [26,27,28,29,30,31,32,33,34,35,36,37]

def settleTags : List UInt8 := [38,39,40,41,42,43]

def postTags : List UInt8 := [0,18,22,26,30,34]

def MaySign (tag : UInt8) : Place → Prop
  | .swap .. => tag ∈ swapTags
  | .vault .. => tag = 0
  | .offer .. => tag ∈ ([4,5,6,7] : List UInt8)
  | .ovault .. => tag = 4
  | .basket .. => tag ∈ ([12,13,14,16,17] : List UInt8)
  | .bvault .. => tag = 12
  | .listing .. => tag ∈ listingTags
  | .order .. => tag ∈ settleTags
  | .orderDone .. => tag ∈ settleTags
  | .config => tag ∈ ([8,11] : List UInt8)
  | .feeVault .. => tag = 10

def MayChange (tag : UInt8) : Place → Prop
  | .swap .. => tag ∈ swapTags
  | .offer .. => tag ∈ ([4,5,6,7] : List UInt8)
  | .basket .. => tag ∈ ([12,13,14,15,16,17] : List UInt8)
  | .listing .. => tag ∈ listingTags
  | .config => tag ∈ ([8,9] : List UInt8)
  | _ => False

structure Footprint (E : Env) (tag : UInt8) (as : List Act) : Prop where
  signs : ∀ k, SignsIn E as k → ∃ p, MaySign tag p ∧ p.At E.host k
  changes : ∀ k, TouchedIn as k → ∃ p, MayChange tag p ∧ p.At E.host k
  logs : ∀ b, .log b ∈ as → tag ∈ postTags

section
variable {E : Env} {tag : UInt8} {as bs : List Act} {m m' : Machine} {d : Bytes}

theorem Idle.footprint (h : Idle E as) : Footprint E tag as :=
  ⟨fun k hk => (h.signs k hk).elim,fun k hk => (h.touches k hk).elim,
    fun b hb => (h.quiet b hb).elim⟩

theorem Footprint.append (ha : Footprint E tag as) (hb : Footprint E tag bs) :
    Footprint E tag (as ++ bs) where
  signs k hk := ((signsIn_append as bs k).mp hk).elim (ha.signs k) (hb.signs k)
  changes k hk := ((touchedIn_append as bs k).mp hk).elim (ha.changes k) (hb.changes k)
  logs b hm := (List.mem_append.mp hm).elim (ha.logs b) (hb.logs b)

theorem Footprint.cons {a : Act} (ha : Footprint E tag [a]) (hb : Footprint E tag bs) :
    Footprint E tag (a :: bs) := ha.append hb

theorem footprint_nil : Footprint E tag [] := Idle.footprint ⟨by simp,by simp,by simp⟩

theorem footprint_unsigned (c : Cpi) : Footprint E tag [.invoke c none] :=
  Idle.footprint ⟨by simp,by simp,by simp⟩

theorem footprint_log (b : Bytes) (ht : tag ∈ postTags) : Footprint E tag [.log b] :=
  ⟨fun k hk => by simp at hk,fun k hk => by simp at hk,fun _ _ => ht⟩

theorem footprint_signed (p : Place) (b : UInt8) (c : Cpi) (hp : p.Sized) (hs : MaySign tag p) :
    Footprint E tag [.invoke c (some (bumped p.seeds b))] where
  signs k hk := ⟨p,hs,hp,b,by simpa using hk⟩
  changes k hk := by simp at hk
  logs j hj := by simp at hj

theorem footprint_write (p : Place) (k : Pubkey) (b : Bytes) (hk : p.At E.host k)
    (hc : MayChange tag p) : Footprint E tag [.write k b] where
  signs j hj := by simp at hj
  changes j hj := by
    rw [touchedIn_write] at hj
    exact ⟨p,hc,hj ▸ hk⟩
  logs j hj := by simp at hj

theorem footprint_close (p : Place) (k dest : Pubkey) (hk : p.At E.host k)
    (hc : MayChange tag p) : Footprint E tag [.close k dest] where
  signs j hj := by simp at hj
  changes j hj := by
    rw [touchedIn_close] at hj
    exact ⟨p,hc,hj ▸ hk⟩
  logs j hj := by simp at hj

theorem footprint_priceActs (p : Place) (b : UInt8) (tokenProg source mint feeAta dest authority :
    Pubkey) (price fee : ℕ) (dec : UInt8) (hp : p.Sized) (hs : MaySign tag p) :
    Footprint E tag (priceActs tokenProg source mint feeAta dest authority price fee dec
      (some (bumped p.seeds b))) := by
  unfold priceActs feeActs
  split
  · exact (footprint_signed p b _ hp hs).append (footprint_signed p b _ hp hs)
  · exact footprint_signed p b _ hp hs

theorem footprint_flatMap (n : ℕ) (g : ℕ → List Act) (h : ∀ i < n, Footprint E tag (g i)) :
    Footprint E tag ((List.range n).flatMap g) := by
  induction n with
  | zero => exact footprint_nil
  | succ n ih =>
    rw [List.range_succ, List.flatMap_append, List.flatMap_singleton]
    exact (ih fun i hi => h i (by omega)).append (h n (by omega))

def Within (E : Env) (tag : UInt8) (m m' : Machine) : Prop := ∃ as, Did E as m m' ∧
    Footprint E tag as

theorem Within.of_did (h : Did E as m m') (hf : Footprint E tag as) : Within E tag m m' := ⟨as,h,hf⟩

theorem Within.refl (m : Machine) : Within E tag m m := ⟨[],(did_nil m m).mpr rfl,footprint_nil⟩

theorem Within.did {m'' : Machine} (h : Within E tag m m') (hd : Did E as m' m'')
    (hf : Footprint E tag as) : Within E tag m m'' := by
  obtain ⟨bs,hb,hfb⟩ := h
  exact ⟨bs ++ as,(did_append _ _ m m'').mpr ⟨m',hb,hd⟩,hfb.append hf⟩

theorem Within.act {a : Act} {s : Ledger} (h : Within E tag m m')
    (he : a.effect E m'.ledger = some s) (hf : Footprint E tag [a]) :
    Within E tag m (m'.next a s) := h.did ((did_cons a [] m' _).mpr ⟨s,he,rfl⟩) hf

end

end Xete.Swap
