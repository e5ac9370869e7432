import XetePrograms.Library.Octets

/-!
# Codecs that read a value from the front of a byte string

A codec carries the two laws of a canonical format: what is written is read
back with the rest untouched, and what is read was written so. The codecs of
the fixed-width fields, of pairs and of length-prefixed byte strings have them,
and so a whole input is accepted exactly when it is the encoding of a value.
-/

set_option autoImplicit false

namespace Xete.Borsh
open Xete.Octets

universe u v

structure Codec (α : Type u) where
  Valid : α → Prop
  encode : α → Bytes
  decode : Bytes → Option (α × Bytes)
  decode_encode : ∀ a rest, Valid a → decode (encode a ++ rest) = some (a,rest)
  encode_decode : ∀ d a rest, decode d = some (a,rest) → d = encode a ++ rest ∧ Valid a

namespace Codec
variable {α : Type u} {β : Type v}

/-- Read a value that takes the whole input. -/
def fromSlice (c : Codec α) (d : Bytes) : Option α :=
  match c.decode d with
  | some (a,[]) => some a
  | _ => none

theorem fromSlice_iff (c : Codec α) (d : Bytes) (a : α) :
    c.fromSlice d = some a ↔ c.Valid a ∧ d = c.encode a := by
  constructor
  · intro h
    unfold fromSlice at h
    split at h
    · rename_i b hd
      cases h
      obtain ⟨he,hv⟩ := c.encode_decode d a [] hd
      exact ⟨hv,by rw [he, List.append_nil]⟩
    · cases h
  · rintro ⟨hv,rfl⟩
    have h := c.decode_encode a [] hv
    rw [List.append_nil] at h
    rw [fromSlice, h]

/-- A byte string of `n` bytes. -/
def array (n : ℕ) : Codec Bytes where
  Valid b := b.length = n
  encode b := b
  decode d := if n ≤ d.length then some (d.take n,d.drop n) else none
  decode_encode b rest hb := by
    subst hb
    simp
  encode_decode d b rest h := by
    split at h
    · rename_i hn
      cases h
      exact ⟨(List.take_append_drop n d).symm,by simpa using hn⟩
    · cases h

/-- The same bytes read as another type, through a one-to-one correspondence. -/
def map (c : Codec α) (f : α → β) (g : β → α) (P : β → Prop) (hP : ∀ b, P b → c.Valid (g b))
    (hfg : ∀ b, P b → f (g b) = b) (hgf : ∀ a, c.Valid a → g (f a) = a ∧ P (f a)) : Codec β where
  Valid := P
  encode b := c.encode (g b)
  decode d := (c.decode d).map fun p => (f p.1,p.2)
  decode_encode b rest hb := by
    rw [c.decode_encode _ rest (hP b hb), Option.map_some, hfg b hb]
  encode_decode d b rest h := by
    simp only [Option.map_eq_some_iff, Prod.mk.injEq, Prod.exists] at h
    obtain ⟨a,r,hd,rfl,rfl⟩ := h
    obtain ⟨he,hv⟩ := c.encode_decode d a r hd
    obtain ⟨hg,hp⟩ := hgf a hv
    exact ⟨by rw [hg, he],hp⟩

/-- An unsigned little-endian integer of `w` bytes. -/
def uint (w : ℕ) : Codec ℕ :=
  (array w).map natLe (le w) (fun n => n < 256^w) (fun n _ => le_length w n)
    (fun n hn => natLe_le w n hn) fun b hb => by
      subst hb
      exact ⟨le_natLe b,natLe_lt b⟩

/-- A two's-complement little-endian integer of `w` bytes. -/
def int (w : ℕ) : Codec ℤ :=
  (array w).map intLe (leInt w) (fun z => -(256^w : ℤ) ≤ 2*z ∧ 2*z < 256^w)
    (fun z _ => leInt_length w z) (fun z hz => intLe_leInt w z hz.1 hz.2) fun b hb => by
      subst hb
      exact ⟨leInt_intLe b,intLe_bounds b⟩

/-- One value after the other. -/
def pair (c : Codec α) (e : Codec β) : Codec (α × β) where
  Valid p := c.Valid p.1 ∧ e.Valid p.2
  encode p := c.encode p.1 ++ e.encode p.2
  decode d := (c.decode d).bind fun p => (e.decode p.2).map fun q => ((p.1,q.1),q.2)
  decode_encode p rest hp := by
    rw [List.append_assoc, c.decode_encode _ _ hp.1, Option.bind_some, e.decode_encode _ _ hp.2]
    rfl
  encode_decode d p rest h := by
    simp only [Option.bind_eq_some_iff, Option.map_eq_some_iff] at h
    obtain ⟨q,hq,r,hr,he⟩ := h
    cases he
    obtain ⟨hd,hv⟩ := c.encode_decode d q.1 q.2 hq
    obtain ⟨hd',hv'⟩ := e.encode_decode q.2 r.1 r.2 hr
    exact ⟨by rw [List.append_assoc, ← hd', ← hd],hv,hv'⟩

/-- A byte string behind its length, which takes `w` bytes. -/
def vec (w : ℕ) : Codec Bytes where
  Valid b := b.length < 256^w
  encode b := le w b.length ++ b
  decode d := ((uint w).decode d).bind fun p => (array p.1).decode p.2
  decode_encode b rest hb := by
    have h : (uint w).decode (le w b.length ++ (b ++ rest)) = some (b.length,b ++ rest) :=
      (uint w).decode_encode b.length (b ++ rest) hb
    rw [List.append_assoc, h, Option.bind_some]
    exact (array b.length).decode_encode b rest rfl
  encode_decode d b rest h := by
    simp only [Option.bind_eq_some_iff] at h
    obtain ⟨⟨n,r⟩,hn,hr⟩ := h
    obtain ⟨hd,hv⟩ := (uint w).encode_decode d n r hn
    obtain ⟨hr',hl⟩ := (array n).encode_decode r b rest hr
    cases hl
    exact ⟨by rw [List.append_assoc, hd, hr']; rfl,hv⟩

/-- A value behind the byte that tells which variant it is. -/
def variant (t : UInt8) (c : Codec α) : Codec α where
  Valid := c.Valid
  encode a := t :: c.encode a
  decode d := if d.head? = some t then c.decode d.tail else none
  decode_encode a rest ha := by
    simpa using c.decode_encode a rest ha
  encode_decode d a rest h := by
    split at h
    · rename_i ht
      obtain ⟨he,hv⟩ := c.encode_decode d.tail a rest h
      rw [List.cons_append, ← he]
      exact ⟨(List.head?_eq_some_iff.mp ht).elim fun l hl => by rw [hl]; rfl,hv⟩
    · cases h

theorem variant_head {t : UInt8} {c : Codec α} {d : Bytes} {p : α × Bytes}
    (h : (variant t c).decode d = some p) : d.head? = some t := by
  simp only [variant] at h
  split at h
  · assumption
  · cases h

/-- A value of one codec or of another one that reads none of the same inputs. -/
def either (c : Codec α) (e : Codec β)
    (hd : ∀ d p, c.decode d = some p → e.decode d = none) : Codec (α ⊕ β) where
  Valid := Sum.elim c.Valid e.Valid
  encode := Sum.elim c.encode e.encode
  decode d := match c.decode d with
    | some p => some (.inl p.1,p.2)
    | none => (e.decode d).map fun p => (.inr p.1,p.2)
  decode_encode x rest hx := by
    cases x with
    | inl a =>
      rw [Sum.elim_inl, c.decode_encode a rest hx]
    | inr b =>
      have he := e.decode_encode b rest hx
      rw [Sum.elim_inr]
      cases hc : c.decode (e.encode b ++ rest) with
      | none => rw [he, Option.map_some]
      | some p => rw [hd _ _ hc] at he; cases he
  encode_decode d x rest h := by
    cases hc : c.decode d with
    | some p =>
      rw [hc] at h
      cases h
      exact c.encode_decode d p.1 p.2 hc
    | none =>
      rw [hc] at h
      obtain ⟨p,hp,hx⟩ := Option.map_eq_some_iff.mp h
      cases hx
      exact e.encode_decode d p.1 p.2 hp

theorem variant_disjoint {t u : UInt8} {c : Codec α} {e : Codec β} (h : t ≠ u) (d : Bytes)
    (p : α × Bytes) (hd : (variant t c).decode d = some p) : (variant u e).decode d = none := by
  have hn : d.head? ≠ some u := by
    rw [variant_head hd]
    simpa using h
  exact if_neg hn

theorem either_none {c : Codec α} {e : Codec β}
    {hd : ∀ d p, c.decode d = some p → e.decode d = none} {d : Bytes} :
    (either c e hd).decode d = none ↔ c.decode d = none ∧ e.decode d = none := by
  simp only [either]
  cases c.decode d <;> simp

/-- A byte is its own encoding. -/
def byte : Codec UInt8 where
  Valid _ := True
  encode b := [b]
  decode
    | [] => none
    | b :: d => some (b,d)
  decode_encode _ _ _ := rfl
  encode_decode d b rest h := by
    cases d with
    | nil => cases h
    | cons c d => cases h; exact ⟨rfl,trivial⟩

/-- Only the values that satisfy `P`. -/
def guarded (c : Codec α) (P : α → Prop) [DecidablePred P] : Codec α where
  Valid a := c.Valid a ∧ P a
  encode := c.encode
  decode d := (c.decode d).bind fun p => if P p.1 then some p else none
  decode_encode a rest ha := by
    rw [c.decode_encode a rest ha.1, Option.bind_some, if_pos ha.2]
  encode_decode d a rest h := by
    obtain ⟨p,hp,hq⟩ := Option.bind_eq_some_iff.mp h
    split at hq
    · rename_i hP
      cases hq
      obtain ⟨he,hv⟩ := c.encode_decode d _ _ hp
      exact ⟨he,hv,hP⟩
    · cases hq

/-- A value that may be missing, behind the byte one, or the byte zero. -/
def option (c : Codec α) : Codec (Option α) where
  Valid o := ∀ a ∈ o, c.Valid a
  encode
    | none => [0]
    | some a => 1 :: c.encode a
  decode
    | [] => none
    | t :: d =>
      if t = 1 then (c.decode d).map fun p => (some p.1,p.2)
      else if t = 0 then some (none,d) else none
  decode_encode o rest ho := by
    cases o with
    | none => rfl
    | some a =>
      rw [List.cons_append]
      show (c.decode (c.encode a ++ rest)).map _ = _
      rw [c.decode_encode a rest (ho a rfl), Option.map_some]
  encode_decode d o rest h := by
    cases d with
    | nil => cases h
    | cons t d =>
      dsimp only at h
      split_ifs at h with h₁ h₀
      · obtain ⟨p,hp,hq⟩ := Option.map_eq_some_iff.mp h
        cases hq
        obtain ⟨he,hv⟩ := c.encode_decode d _ _ hp
        constructor
        · rw [h₁, he]
          rfl
        · intro a ha
          cases ha
          exact hv
      · cases h
        exact ⟨by rw [h₀]; rfl,fun a ha => by cases ha⟩

/-- `n` values one after the other. -/
def decodeList (c : Codec α) : ℕ → Bytes → Option (List α × Bytes)
  | 0, d => some ([],d)
  | n+1, d => (c.decode d).bind fun p => (c.decodeList n p.2).map fun q => (p.1 :: q.1,q.2)

theorem decodeList_encode (c : Codec α) (l : List α) (rest : Bytes) (hl : ∀ a ∈ l, c.Valid a) :
    c.decodeList l.length (l.flatMap c.encode ++ rest) = some (l,rest) := by
  induction l with
  | nil => rfl
  | cons a l ih =>
    rw [List.flatMap_cons, List.append_assoc, List.length_cons, decodeList,
      c.decode_encode a _ (hl a (by simp)), Option.bind_some, ih fun b hb => hl b (by simp [hb])]
    rfl

theorem encode_decodeList (c : Codec α) (n : ℕ) (d : Bytes) (l : List α) (rest : Bytes)
    (h : c.decodeList n d = some (l,rest)) :
    d = l.flatMap c.encode ++ rest ∧ l.length = n ∧ ∀ a ∈ l, c.Valid a := by
  induction n generalizing d l with
  | zero =>
    cases h
    simp
  | succ n ih =>
    obtain ⟨p,hp,hr⟩ := Option.bind_eq_some_iff.mp h
    obtain ⟨q,hq,he⟩ := Option.map_eq_some_iff.mp hr
    cases he
    obtain ⟨hd,hv⟩ := c.encode_decode d _ _ hp
    obtain ⟨hd',hl,hvs⟩ := ih _ _ hq
    refine ⟨?_,by rw [List.length_cons, hl],?_⟩
    · rw [List.flatMap_cons, List.append_assoc, ← hd', ← hd]
    · intro a ha
      cases List.mem_cons.mp ha with
      | inl h => exact h ▸ hv
      | inr h => exact hvs a h

/-- Values behind their number. -/
def counted (n : Codec ℕ) (c : Codec α) : Codec (List α) where
  Valid l := n.Valid l.length ∧ ∀ a ∈ l, c.Valid a
  encode l := n.encode l.length ++ l.flatMap c.encode
  decode d := (n.decode d).bind fun p => c.decodeList p.1 p.2
  decode_encode l rest hl := by
    rw [List.append_assoc, n.decode_encode _ _ hl.1, Option.bind_some,
      c.decodeList_encode l rest hl.2]
  encode_decode d l rest h := by
    obtain ⟨p,hp,hq⟩ := Option.bind_eq_some_iff.mp h
    obtain ⟨hd,hv⟩ := n.encode_decode d _ _ hp
    obtain ⟨hd',hl,hvs⟩ := c.encode_decodeList _ _ _ _ hq
    rw [← hl] at hv hd
    exact ⟨by rw [List.append_assoc, ← hd', ← hd],hv,hvs⟩

theorem pair_some {c : Codec α} {d rest : Bytes} {a : α} (e : Codec β)
    (h : c.decode d = some (a,rest)) :
    (pair c e).decode d = (e.decode rest).map fun q => ((a,q.1),q.2) := by
  simp only [pair, h, Option.bind_some]

theorem pair_none {c : Codec α} {d : Bytes} (e : Codec β) (h : c.decode d = none) :
    (pair c e).decode d = none := by
  simp only [pair, h, Option.bind_none]

/-! ## Reading at a cursor -/

theorem array_drop (n : ℕ) (d : Bytes) (o : ℕ) (ho : o ≤ d.length) :
    (array n).decode (d.drop o) =
      if o+n ≤ d.length then some (slice d o n,d.drop (o+n)) else none := by
  have hl : n ≤ (d.drop o).length ↔ o+n ≤ d.length := by rw [List.length_drop]; omega
  simp only [array, hl, List.drop_drop]
  rfl

theorem uint_drop (w : ℕ) (d : Bytes) (o : ℕ) (ho : o ≤ d.length) :
    (uint w).decode (d.drop o) =
      if o+w ≤ d.length then some (natLe (slice d o w),d.drop (o+w)) else none := by
  show ((array w).decode (d.drop o)).map _ = _
  rw [array_drop w d o ho]
  split <;> rfl

theorem byte_drop (d : Bytes) (o : ℕ) (ho : o < d.length) :
    byte.decode (d.drop o) = some (byteAt d o,d.drop (o+1)) := by
  have hb : byteAt d o = d[o] := by simp [byteAt, ho]
  rw [List.drop_eq_getElem_cons ho, hb]
  rfl

theorem option_drop (c : Codec α) (d : Bytes) (o : ℕ) (ho : o < d.length) :
    (option c).decode (d.drop o) =
      if byteAt d o = 1 then (c.decode (d.drop (o+1))).map fun p => (some p.1,p.2)
      else if byteAt d o = 0 then some (none,d.drop (o+1)) else none := by
  have hb : byteAt d o = d[o] := by simp [byteAt, ho]
  rw [List.drop_eq_getElem_cons ho, hb]
  rfl

end Codec

end Xete.Borsh
