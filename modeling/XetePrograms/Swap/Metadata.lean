import XetePrograms.Library.Borsh
import XetePrograms.Solana.Checked
import XetePrograms.Swap.RoyaltyTrace

/-!
# The royalty parser and the split

The parser walks a cursor over a Token-Metadata account. It accepts exactly the
byte strings that start with the encoding of a metadata value, and reads this
value back; the split of a royalty by the shares read so leaves no rest.
-/

set_option autoImplicit false

namespace Xete.Swap
open Xete.Octets Xete.Chain Xete.Runtime Xete.Borsh

/-! ## The grammar -/

structure TmCreator where
  address : Pubkey
  verified : Bool
  share : UInt8
  deriving DecidableEq

structure TmMetadata where
  /-- The account key, the update authority and the mint. -/
  header : Bytes
  name : Bytes
  symbol : Bytes
  uri : Bytes
  sellerFeeBasisPoints : ℕ
  creators : Option (List TmCreator)
  deriving DecidableEq

namespace TmMetadata

structure Valid (t : TmMetadata) : Prop where
  header : t.header.length = 65
  name : t.name.length < 256^4
  symbol : t.symbol.length < 256^4
  uri : t.uri.length < 256^4
  bps : t.sellerFeeBasisPoints ≤ 10000
  creators : ∀ cs ∈ t.creators, cs.length ≤ maxCreators

def encodeString (b : Bytes) : Bytes := le 4 b.length ++ b

def encodeCreator (c : TmCreator) : Bytes :=
  c.address.bytes ++ [if c.verified then 1 else 0] ++ [c.share]

def encodeCreators : Option (List TmCreator) → Bytes
  | none => [0]
  | some cs => [1] ++ le 4 cs.length ++ cs.flatMap encodeCreator

def encode (t : TmMetadata) : Bytes :=
  t.header ++ encodeString t.name ++ encodeString t.symbol ++ encodeString t.uri ++
    le 2 t.sellerFeeBasisPoints ++ encodeCreators t.creators

def shares (t : TmMetadata) : List (Pubkey × UInt8) :=
  (t.creators.getD []).map fun c => (c.address,c.share)

def flag : Codec Bool :=
  (Codec.byte.guarded fun b => b = 0 ∨ b = 1).map (fun b => b = 1) (fun v => if v then 1 else 0)
    (fun _ => True) (fun v _ => by cases v <;> exact ⟨trivial,by simp⟩)
    (fun v _ => by cases v <;> rfl) fun b hb => by
      obtain ⟨-,rfl | rfl⟩ := hb <;> exact ⟨rfl,trivial⟩

def creator : Codec TmCreator :=
  (Codec.pair (.array 32) (.pair flag .byte)).map (fun p => ⟨keyAt p.1 0,p.2.1,p.2.2⟩)
    (fun c => (c.address.bytes,c.verified,c.share)) (fun _ => True)
    (fun c _ => ⟨c.address.size,trivial,trivial⟩)
    (fun c _ => by
      have hk := keyAt_eq c.address.bytes 0 c.address (slice_all _ _ c.address.size)
      simp only [hk])
    fun p hp => by
      have hb := keyAt_bytes p.1 0 (le_of_eq hp.1.symm)
      rw [slice_all _ _ hp.1] at hb
      exact ⟨Prod.ext hb rfl,trivial⟩

def codec : Codec TmMetadata :=
  (Codec.pair (.array 65) (.pair (.vec 4) (.pair (.vec 4) (.pair (.vec 4)
    (.pair ((Codec.uint 2).guarded (· ≤ 10000))
      (.option (.counted ((Codec.uint 4).guarded (· ≤ maxCreators)) creator))))))).map
    (fun p => ⟨p.1,p.2.1,p.2.2.1,p.2.2.2.1,p.2.2.2.2.1,p.2.2.2.2.2⟩)
    (fun t => (t.header,t.name,t.symbol,t.uri,t.sellerFeeBasisPoints,t.creators)) Valid
    (fun t ht => by
      refine ⟨ht.header,ht.name,ht.symbol,ht.uri,⟨?_,ht.bps⟩,?_⟩
      · have := ht.bps
        show t.sellerFeeBasisPoints < 256^2
        omega
      · intro cs hcs
        have := ht.creators cs hcs
        refine ⟨⟨?_,this⟩,fun _ _ => trivial⟩
        show cs.length < 256^4
        unfold maxCreators at this
        omega)
    (fun _ _ => rfl)
    fun p hp => by
      obtain ⟨hh,hn,hs,hu,⟨-,hb⟩,hc⟩ := hp
      exact ⟨rfl,hh,hn,hs,hu,hb,fun cs hcs => (hc cs hcs).1.2⟩

theorem creator_encode : creator.encode = encodeCreator := by
  ext1 c
  show c.address.bytes ++ ([if c.verified then 1 else 0] ++ [c.share]) = _
  rw [← List.append_assoc, encodeCreator]

theorem codec_encode (t : TmMetadata) : codec.encode t = t.encode := by
  obtain ⟨h,n,s,u,b,c⟩ := t
  have hc : Codec.encode (.option (.counted ((Codec.uint 4).guarded (· ≤ maxCreators)) creator)) c =
      encodeCreators c := by
    cases c with
    | none => rfl
    | some cs =>
      show 1 :: (le 4 cs.length ++ cs.flatMap creator.encode) = _
      rw [creator_encode]
      rfl
  show h ++ (encodeString n ++ (encodeString s ++ (encodeString u ++ (le 2 b ++ _)))) = _
  rw [hc]
  simp only [encode, List.append_assoc]

end TmMetadata

/-! ## The cursor -/

theorem skipString_drop (d : Bytes) (o : ℕ) (ho : o ≤ d.length) :
    (Codec.vec 4).decode (d.drop o) =
      (skipString d o).map fun o' => (slice d (o+4) (o'-(o+4)),d.drop o') := by
  show ((Codec.uint 4).decode (d.drop o)).bind _ = _
  rw [Codec.uint_drop 4 d o ho, skipString]
  by_cases h : o+4 ≤ d.length
  · rw [if_pos h, if_neg (by omega), Option.bind_some]
    show (Codec.array _).decode (d.drop (o+4)) = _
    rw [Codec.array_drop _ d (o+4) h]
    by_cases h' : o+4+natLe (slice d o 4) ≤ d.length
    · rw [if_pos h', if_neg (by omega)]
      simp
    · rw [if_neg h', if_pos (by omega)]
      rfl
  · rw [if_neg h, if_pos (by omega)]
    rfl

theorem skipString_bound (d : Bytes) (o o' : ℕ) (h : skipString d o = some o') : o' ≤ d.length := by
  unfold skipString at h
  dsimp only at h
  split_ifs at h
  cases h
  omega

theorem keyAt_slice (d : Bytes) (o : ℕ) (h : o+32 ≤ d.length) :
    keyAt (slice d o 32) 0 = keyAt d o := by
  apply keyAt_eq
  rw [keyAt_bytes d o h, slice_all _ _ (slice_length d o 32 h)]

theorem flag_drop (d : Bytes) (o : ℕ) (ho : o < d.length) :
    TmMetadata.flag.decode (d.drop o) =
      if byteAt d o = 0 ∨ byteAt d o = 1 then some (decide (byteAt d o = 1),
        d.drop (o+1)) else none := by
  show ((Codec.byte.decode (d.drop o)).bind _).map _ = _
  rw [Codec.byte_drop d o ho, Option.bind_some]
  split <;> rfl

theorem creator_drop (d : Bytes) (o : ℕ) (ho : o+34 ≤ d.length) :
    TmMetadata.creator.decode (d.drop o) =
      if byteAt d (o+32) = 0 ∨ byteAt d (o+32) = 1 then
        some (⟨keyAt d o,byteAt d (o+32) = 1,byteAt d (o+33)⟩,d.drop (o+34))
      else none := by
  have ha := Codec.array_drop 32 d o (by omega)
  rw [if_pos (by omega)] at ha
  have hk := keyAt_slice d o (by omega)
  show ((Codec.pair (.array 32) (.pair TmMetadata.flag .byte)).decode (d.drop o)).map _ = _
  rw [Codec.pair_some _ ha]
  by_cases hb : byteAt d (o+32) = 0 ∨ byteAt d (o+32) = 1
  · have hf := flag_drop d (o+32) (by omega)
    rw [if_pos hb] at hf
    rw [if_pos hb, Codec.pair_some _ hf, Codec.byte_drop d (o+32+1) (by omega)]
    simp only [Option.map_some, hk]
  · have hf := flag_drop d (o+32) (by omega)
    rw [if_neg hb] at hf
    rw [if_neg hb, Codec.pair_none _ hf]
    rfl

theorem readCreators_drop (d : Bytes) (o n : ℕ) (ho : o+n*34 ≤ d.length) :
    readCreators d o n =
      (TmMetadata.creator.decodeList n (d.drop o)).map
        fun p => p.1.map fun c => (c.address,c.share) := by
  induction n generalizing o with
  | zero => rfl
  | succ n ih =>
    rw [readCreators, Codec.decodeList, creator_drop d o (by omega)]
    split
    · rw [ih (o+34) (by omega), Option.bind_some, Option.map_map, Option.map_map]
      rfl
    · rfl

def creatorsAt (d : Bytes) (o : ℕ) : Option (List (Pubkey × UInt8)) :=
  ((Codec.option (.counted ((Codec.uint 4).guarded (· ≤ maxCreators)) TmMetadata.creator)).decode
    (d.drop o)).map fun p => (p.1.getD []).map fun c => (c.address,c.share)

theorem creator_decodeList_none (d : Bytes) (o n : ℕ) (ho : o ≤ d.length)
    (h : d.length < o+n*34) : TmMetadata.creator.decodeList n (d.drop o) = none := by
  rw [Option.eq_none_iff_forall_ne_some]
  intro p hp
  obtain ⟨hd,hl,-⟩ := Codec.encode_decodeList _ n _ p.1 p.2 hp
  have hlen : ∀ c, (TmMetadata.creator.encode c).length = 34 := by
    simp [TmMetadata.creator_encode, TmMetadata.encodeCreator]
  have hsum := congrArg List.length hd
  simp only [List.length_append, List.length_flatMap, List.length_drop, hlen, List.map_const',
    List.sum_replicate_nat, hl] at hsum
  omega

theorem creatorsAt_cases (d : Bytes) (o : ℕ) (ho : o < d.length) :
    creatorsAt d o =
      if byteAt d o = 1 then
        if o+5 ≤ d.length ∧ natLe (slice d (o+1) 4) ≤ maxCreators ∧
            o+5+natLe (slice d (o+1) 4)*34 ≤ d.length then
          readCreators d (o+5) (natLe (slice d (o+1) 4))
        else none
      else if byteAt d o = 0 then some [] else none := by
  rw [creatorsAt, Codec.option_drop _ d o ho]
  by_cases h₁ : byteAt d o = 1
  · rw [if_pos h₁, if_pos h₁, Option.map_map]
    show Option.map _ ((((Codec.uint 4).decode (d.drop (o+1))).bind _).bind _) = _
    rw [Codec.uint_drop 4 d (o+1) ho]
    by_cases h₅ : o+1+4 ≤ d.length
    · rw [if_pos h₅, Option.bind_some]
      by_cases hm : natLe (slice d (o+1) 4) ≤ maxCreators
      · rw [if_pos hm, Option.bind_some]
        by_cases he : o+5+natLe (slice d (o+1) 4)*34 ≤ d.length
        · rw [if_pos ⟨h₅,hm,he⟩, readCreators_drop d (o+5) _ he]
          rfl
        · rw [if_neg fun h => he h.2.2, creator_decodeList_none d (o+5) _ h₅ (by omega)]
          rfl
      · rw [if_neg hm, if_neg fun h => hm h.2.1]
        rfl
    · rw [if_neg h₅, if_neg fun h => h₅ h.1]
      rfl
  · rw [if_neg h₁, if_neg h₁]
    split <;> rfl

def royaltyAt (d : Bytes) (o : ℕ) : Option (ℕ × List (Pubkey × UInt8)) := do
  guard (o+2 ≤ d.length)
  let bps := natLe (slice d o 2)
  guard (bps ≤ 10000)
  guard (o+2 < d.length)
  let opt := byteAt d (o+2)
  let o := o+3
  if opt = 1 then
    guard (o+4 ≤ d.length)
    let vlen := natLe (slice d o 4)
    let o := o+4
    guard (vlen ≤ maxCreators)
    guard (o+vlen*34 ≤ d.length)
    let creators ← readCreators d o vlen
    return (bps,creators)
  else
    guard (opt = 0)
    return (bps,[])

theorem parseTmRoyalty_strings (d : Bytes) :
    parseTmRoyalty d =
      if 65 ≤ d.length then
        (((skipString d 65).bind (skipString d)).bind (skipString d)).bind (royaltyAt d)
      else none := by
  unfold parseTmRoyalty royaltyAt
  by_cases h : 65 ≤ d.length
  · simp [h, guard, Option.bind_assoc]
  · simp [h, guard]

theorem royaltyAt_eq (d : Bytes) (o : ℕ) :
    royaltyAt d o =
      if o+2 < d.length ∧ natLe (slice d o 2) ≤ 10000 then
        (creatorsAt d (o+2)).map fun cs => (natLe (slice d o 2),cs)
      else none := by
  unfold royaltyAt
  by_cases h₃ : o+2 < d.length
  · have h₂ : o+2 ≤ d.length := by omega
    by_cases hb : natLe (slice d o 2) ≤ 10000
    · simp only [h₂, hb, h₃, guard, and_self, if_true, Option.pure_def, Option.bind_eq_bind,
        Option.bind_some, creatorsAt_cases d (o+2) h₃]
      by_cases h₁ : byteAt d (o+2) = 1
      · simp only [h₁, if_true, Nat.add_assoc, Nat.reduceAdd]
        by_cases h₇ : o+7 ≤ d.length
        · by_cases hm : natLe (slice d (o+3) 4) ≤ maxCreators
          · by_cases he : o+(7+natLe (slice d (o+3) 4)*34) ≤ d.length
            · simp only [h₇, hm, he, and_self, if_true, Option.bind_some, Option.map_eq_bind]
              rfl
            · simp [h₇, hm, he]
          · simp [h₇, hm]
        · simp [h₇]
      · simp only [h₁, if_false]
        split <;> rfl
    · simp [guard, hb]
  · simp [guard, h₃]

def royaltyTerms (q : ℕ × Option (List TmCreator)) : ℕ × List (Pubkey × UInt8) :=
  (q.1,(q.2.getD []).map fun c => (c.address,c.share))

/-- What the tail of the codec gives is what the parser reads past the strings. -/
theorem royaltyAt_drop (d : Bytes) (o : ℕ) (ho : o ≤ d.length) :
    royaltyAt d o =
      ((Codec.pair ((Codec.uint 2).guarded (· ≤ 10000))
        (.option (.counted ((Codec.uint 4).guarded (· ≤ maxCreators)) TmMetadata.creator))).decode
          (d.drop o)).map fun p => royaltyTerms p.1 := by
  have hb : ((Codec.uint 2).guarded (· ≤ 10000)).decode (d.drop o) =
      if o+2 ≤ d.length ∧ natLe (slice d o 2) ≤ 10000 then
        some (natLe (slice d o 2),d.drop (o+2)) else none := by
    show ((Codec.uint 2).decode (d.drop o)).bind _ = _
    rw [Codec.uint_drop 2 d o ho]
    by_cases h₂ : o+2 ≤ d.length
    · simp [h₂]
    · simp [h₂]
  rw [royaltyAt_eq]
  by_cases h : o+2 ≤ d.length ∧ natLe (slice d o 2) ≤ 10000
  · rw [if_pos h] at hb
    rw [Codec.pair_some _ hb, Option.map_map]
    by_cases h₃ : o+2 < d.length
    · rw [if_pos ⟨h₃,h.2⟩, creatorsAt, Option.map_map]
      rfl
    · rw [if_neg fun hc => h₃ hc.1, List.drop_eq_nil_of_le (by omega)]
      rfl
  · rw [if_neg h] at hb
    rw [Codec.pair_none _ hb, if_neg fun hc => h ⟨by omega,hc.2⟩]
    rfl

/-- A reader past a string reads what the codec past the string gives. -/
theorem skipString_bind {β γ : Type} (d : Bytes) (e : Codec β) (v : β → γ) (g : ℕ → Option γ)
    (hg : ∀ o, o ≤ d.length → g o = (e.decode (d.drop o)).map fun p => v p.1) (o : ℕ)
    (ho : o ≤ d.length) :
    (skipString d o).bind g =
      ((Codec.pair (.vec 4) e).decode (d.drop o)).map fun p => v p.1.2 := by
  have hs := skipString_drop d o ho
  cases h : skipString d o with
  | none =>
    rw [h] at hs
    rw [Codec.pair_none e hs]
    rfl
  | some o' =>
    rw [h] at hs
    rw [Codec.pair_some e hs, Option.bind_some, hg o' (skipString_bound d o o' h), Option.map_map]
    rfl

theorem parseTmRoyalty_eq (d : Bytes) :
    parseTmRoyalty d =
      (TmMetadata.codec.decode d).map fun p => (p.1.sellerFeeBasisPoints,p.1.shares) := by
  have ha := Codec.array_drop 65 d 0 (by omega)
  rw [parseTmRoyalty_strings]
  show _ = Option.map _ (Option.map _ (Codec.decode (.pair (.array 65) _) d))
  by_cases h : 65 ≤ d.length
  · rw [List.drop_zero, if_pos (by omega)] at ha
    rw [if_pos h, Codec.pair_some _ ha, Option.bind_assoc,
      Option.bind_assoc]
    -- each string in turn, the last one before the fixed tail
    have h₃ := skipString_bind d _ royaltyTerms (royaltyAt d) (royaltyAt_drop d)
    have h₂ := skipString_bind d _ (fun q : Bytes × _ => royaltyTerms q.2) _ h₃
    have h₁ := skipString_bind d _ (fun q : Bytes × Bytes × _ => royaltyTerms q.2.2) _ h₂
    rw [h₁ 65 h, Option.map_map, Option.map_map]
    rfl
  · rw [List.drop_zero, if_neg (by omega)] at ha
    rw [if_neg h, Codec.pair_none _ ha]
    rfl

/-! ## The cursor as it is compiled -/

def skipStringIndexed (d : Bytes) (o : ℕ) : Except ProgramError ℕ := do
  let e ← Checked.add o 4
  if d.length < e then throw .invalidAccountData
  let len ← Checked.range d o 4
  let e ← Checked.addOr .invalidAccountData o 4
  let e ← Checked.addOr .invalidAccountData e (natLe len)
  if d.length < e then throw .invalidAccountData
  return e

def readCreatorsIndexed (d : Bytes) (o : ℕ) : ℕ → Except ProgramError (List (Pubkey × UInt8))
  | 0 => return []
  | n+1 => do
    let a ← Checked.range d o 32
    let v ← Checked.add o 32
    let verified ← Checked.byte d v
    if verified = 0 ∨ verified = 1 then
      let s ← Checked.add o 33
      let share ← Checked.byte d s
      let o ← Checked.add o 34
      let cs ← readCreatorsIndexed d o n
      return (keyAt a 0,share) :: cs
    else throw .invalidAccountData

def creatorSlots (cs : List (Pubkey × UInt8)) : List (Pubkey × UInt8) :=
  cs ++ List.replicate (maxCreators-cs.length) (zeroKey,0)

def royaltyAtIndexed (d : Bytes) (o : ℕ) :
    Except ProgramError (ℕ × List (Pubkey × UInt8) × ℕ) := do
  let e ← Checked.add o 2
  if d.length < e then throw .invalidAccountData
  let bps ← Checked.range d o 2
  if 10000 < natLe bps then throw .invalidAccountData
  let o ← Checked.add o 2
  if d.length ≤ o then throw .invalidAccountData
  let opt ← Checked.byte d o
  let o ← Checked.add o 1
  if opt = 1 then
    let e ← Checked.add o 4
    if d.length < e then throw .invalidAccountData
    let vlen ← Checked.range d o 4
    let o ← Checked.add o 4
    if maxCreators < natLe vlen then throw .invalidAccountData
    let size ← Checked.mulOr .invalidAccountData (natLe vlen) 34
    let e ← Checked.addOr .invalidAccountData o size
    if d.length < e then throw .invalidAccountData
    let cs ← readCreatorsIndexed d o (natLe vlen)
    return (natLe bps,creatorSlots cs,natLe vlen)
  else
    if opt ≠ 0 then throw .invalidAccountData
    return (natLe bps,creatorSlots [],0)

/-- The parser with every index and sum checked, and its array of slots with
the number of those in use. -/
def parseTmRoyaltyIndexed (d : Bytes) :
    Except ProgramError (ℕ × List (Pubkey × UInt8) × ℕ) := do
  if d.length < 65 then throw .invalidAccountData
  let o ← skipStringIndexed d 65
  let o ← skipStringIndexed d o
  let o ← skipStringIndexed d o
  royaltyAtIndexed d o

theorem natLe_slice_four (d : Bytes) (o : ℕ) : natLe (slice d o 4) < 2^32 := by
  have h := natLe_lt (slice d o 4)
  have hl := slice_length_le d o 4
  have hp : 256^(slice d o 4).length ≤ 256^4 := Nat.pow_le_pow_right (by decide) hl
  omega

theorem skipStringIndexed_eq (d : Bytes) (o : ℕ) (hd : d.length < 2^63) (ho : o ≤ d.length) :
    skipStringIndexed d o = Checked.okOr .invalidAccountData (skipString d o) := by
  have hn := natLe_slice_four d o
  have h₁ : o+4 ≤ u64Max := by unfold u64Max; omega
  have h₂ : o+4+natLe (slice d o 4) ≤ u64Max := by unfold u64Max; omega
  unfold skipStringIndexed skipString
  by_cases h : d.length < o+4
  · simp only [Checked.add_bind h₁, h, if_true]
    rfl
  · have hr : o+4 ≤ d.length := by omega
    simp only [Checked.add_bind h₁, h, if_false, Checked.range_bind hr, Checked.addOr_bind h₁,
      Checked.addOr_bind h₂]
    split <;> rfl

theorem readCreatorsIndexed_eq (d : Bytes) (o n : ℕ) (hd : d.length < 2^63)
    (ho : o+n*34 ≤ d.length) :
    readCreatorsIndexed d o n = Checked.okOr .invalidAccountData (readCreators d o n) := by
  induction n generalizing o with
  | zero => rfl
  | succ n ih =>
    have h₀ : o+32 ≤ d.length := by omega
    have h₁ : o+32 ≤ u64Max := by unfold u64Max; omega
    have h₂ : o+33 ≤ u64Max := by unfold u64Max; omega
    have h₃ : o+34 ≤ u64Max := by unfold u64Max; omega
    have h₄ : o+32 < d.length := by omega
    have h₅ : o+33 < d.length := by omega
    have hk := keyAt_slice d o h₀
    rw [readCreatorsIndexed, readCreators, Checked.range_bind h₀, Checked.add_bind h₁,
      Checked.byte_bind h₄]
    split
    · rw [Checked.add_bind h₂, Checked.byte_bind h₅, Checked.add_bind h₃, ih (o+34) (by omega), hk]
      cases readCreators d (o+34) n <;> rfl
    · rfl

theorem readCreators_length (d : Bytes) (o n : ℕ) (cs : List (Pubkey × UInt8))
    (h : readCreators d o n = some cs) : cs.length = n := by
  induction n generalizing o cs with
  | zero =>
    cases h
    rfl
  | succ n ih =>
    rw [readCreators] at h
    split at h
    · obtain ⟨r,hr,rfl⟩ := Option.map_eq_some_iff.mp h
      rw [List.length_cons, ih _ _ hr]
    · cases h

def slots (r : ℕ × List (Pubkey × UInt8)) : ℕ × List (Pubkey × UInt8) × ℕ :=
  (r.1,creatorSlots r.2,r.2.length)

theorem royaltyAtIndexed_eq (d : Bytes) (o : ℕ) (hd : d.length < 2^63) (ho : o ≤ d.length) :
    royaltyAtIndexed d o = Checked.okOr .invalidAccountData ((royaltyAt d o).map slots) := by
  have w₂ : o+2 ≤ u64Max := by unfold u64Max; omega
  have w₃ : o+2+1 ≤ u64Max := by unfold u64Max; omega
  have w₇ : o+2+1+4 ≤ u64Max := by unfold u64Max; omega
  rw [royaltyAt_eq]
  unfold royaltyAtIndexed
  by_cases h₂ : d.length < o+2
  · rw [if_neg (by omega)]
    simp only [Checked.add_bind w₂, h₂, if_true]
    rfl
  have r₂ : o+2 ≤ d.length := by omega
  by_cases hb : 10000 < natLe (slice d o 2)
  · rw [if_neg (by omega)]
    simp only [Checked.add_bind w₂, h₂, if_false, Checked.range_bind r₂, hb, if_true]
    rfl
  by_cases h₃ : d.length ≤ o+2
  · rw [if_neg (by omega)]
    simp only [Checked.add_bind w₂, h₂, if_false, Checked.range_bind r₂, hb, h₃, if_true]
    rfl
  have r₃ : o+2 < d.length := by omega
  rw [if_pos ⟨r₃,by omega⟩, creatorsAt_cases d (o+2) r₃]
  simp only [Checked.add_bind w₂, h₂, if_false, Checked.range_bind r₂, hb, h₃, Checked.byte_bind r₃,
    Checked.add_bind w₃]
  by_cases h₁ : byteAt d (o+2) = 1
  · simp only [h₁, if_true, Checked.add_bind w₇]
    by_cases h₇ : d.length < o+2+1+4
    · have n₇ : ¬o+2+5 ≤ d.length := by omega
      simp only [h₇, if_true, n₇, false_and, if_false]
      rfl
    have r₇ : o+2+1+4 ≤ d.length := by omega
    have hn := natLe_slice_four d (o+2+1)
    simp only [h₇, if_false, Checked.range_bind r₇, show o+2+5 ≤ d.length by omega, true_and]
    by_cases hm : maxCreators < natLe (slice d (o+2+1) 4)
    · have nm : ¬natLe (slice d (o+2+1) 4) ≤ maxCreators := by omega
      simp only [hm, if_true, nm, false_and, if_false]
      rfl
    have wm : natLe (slice d (o+2+1) 4)*34 ≤ u64Max := by unfold u64Max; omega
    have we : o+2+1+4+natLe (slice d (o+2+1) 4)*34 ≤ u64Max := by unfold u64Max; omega
    simp only [hm, if_false, Checked.mulOr_bind wm, Checked.addOr_bind we,
      show natLe (slice d (o+2+1) 4) ≤ maxCreators by omega, true_and]
    by_cases he : d.length < o+2+1+4+natLe (slice d (o+2+1) 4)*34
    · have ne : ¬o+2+5+natLe (slice d (o+2+1) 4)*34 ≤ d.length := by omega
      simp only [he, if_true, ne, if_false]
      rfl
    have re : o+2+5+natLe (slice d (o+2+1) 4)*34 ≤ d.length := by omega
    simp only [he, if_false, re, if_true]
    rw [readCreatorsIndexed_eq d (o+2+1+4) _ hd re, show o+2+1+4 = o+2+5 from rfl]
    cases hc : readCreators d (o+2+5) (natLe (slice d (o+2+1) 4)) with
    | none => rfl
    | some cs =>
      have hl := readCreators_length d _ _ cs hc
      show _ = Except.ok (natLe (slice d o 2),creatorSlots cs,cs.length)
      rw [hl]
      rfl
  · by_cases h₀ : byteAt d (o+2) = 0
    · simp [h₀]
      rfl
    · simp only [h₁, h₀, if_false, ne_eq, not_false_eq_true, if_true]
      rfl

theorem skipStringIndexed_bind {γ δ : Type} (d : Bytes) (hd : d.length < 2^63) (v : γ → δ)
    (g : ℕ → Option γ) (gi : ℕ → Except ProgramError δ)
    (hg : ∀ o, o ≤ d.length → gi o = Checked.okOr .invalidAccountData ((g o).map v)) (o : ℕ)
    (ho : o ≤ d.length) :
    (skipStringIndexed d o >>= gi) =
      Checked.okOr .invalidAccountData (((skipString d o).bind g).map v) := by
  rw [skipStringIndexed_eq d o hd ho]
  cases h : skipString d o with
  | none => rfl
  | some o' => exact hg o' (skipString_bound d o o' h)

theorem parseTmRoyaltyIndexed_eq (d : Bytes) (hd : d.length < 2^63) :
    parseTmRoyaltyIndexed d = Checked.okOr .invalidAccountData ((parseTmRoyalty d).map slots) := by
  rw [parseTmRoyalty_strings]
  unfold parseTmRoyaltyIndexed
  by_cases h : d.length < 65
  · have h₀ : ¬65 ≤ d.length := by omega
    simp only [h, if_true, h₀, if_false]
    rfl
  have h₀ : 65 ≤ d.length := by omega
  have h₃ := skipStringIndexed_bind d hd slots (royaltyAt d) (royaltyAtIndexed d)
    fun o ho => royaltyAtIndexed_eq d o hd ho
  have h₂ := skipStringIndexed_bind d hd slots _ _ h₃
  have h₁ := skipStringIndexed_bind d hd slots _ _ h₂
  simp only [h, if_false, h₀, if_true, Option.bind_assoc]
  exact h₁ 65 h₀

/-! ## Exactly the grammar -/

theorem parseTmRoyalty_iff (d : Bytes) (bps : ℕ) (cs : List (Pubkey × UInt8)) :
    parseTmRoyalty d = some (bps,cs) ↔
      ∃ (t : TmMetadata) (tail : Bytes), t.Valid ∧ d = t.encode ++ tail ∧
        t.sellerFeeBasisPoints = bps ∧ t.shares = cs := by
  rw [parseTmRoyalty_eq]
  constructor
  · intro h
    obtain ⟨⟨t,tail⟩,ht,he⟩ := Option.map_eq_some_iff.mp h
    obtain ⟨hd,hv⟩ := TmMetadata.codec.encode_decode d t tail ht
    cases he
    exact ⟨t,tail,hv,by rw [← TmMetadata.codec_encode, ← hd],rfl,rfl⟩
  · rintro ⟨t,tail,hv,rfl,rfl,rfl⟩
    rw [← TmMetadata.codec_encode, TmMetadata.codec.decode_encode t tail hv, Option.map_some]

theorem parseTmRoyalty_bounds {b : Bytes} {bps : ℕ} {creators : List (Pubkey × UInt8)}
    (h : parseTmRoyalty b = some (bps,creators)) :
    bps ≤ 10000 ∧ creators.length ≤ maxCreators ∧ 65 ≤ b.length := by
  obtain ⟨t,tail,hv,rfl,rfl,rfl⟩ := (parseTmRoyalty_iff _ _ _).mp h
  refine ⟨hv.bps,?_,?_⟩
  · cases hc : t.creators with
    | none => simp [TmMetadata.shares, hc]
    | some cs => simpa [TmMetadata.shares, hc] using hv.creators cs hc
  · have hl := hv.header
    simp only [TmMetadata.encode, List.length_append]
    omega

/-- The parser accepts exactly the encodings of metadata with any tail, inverts
the encoder, and never indexes out of bounds or overflows. -/
theorem parse_accepts_metadata :
    (∀ d bps cs, parseTmRoyalty d = some (bps,cs) ↔
      ∃ (t : TmMetadata) (tail : Bytes), t.Valid ∧ d = t.encode ++ tail ∧
        t.sellerFeeBasisPoints = bps ∧ t.shares = cs) ∧
    (∀ (t : TmMetadata) (tail : Bytes), t.Valid →
      parseTmRoyalty (t.encode ++ tail) = some (t.sellerFeeBasisPoints,t.shares)) ∧
    ∀ d : Checked.Slice,
      parseTmRoyaltyIndexed d.bytes = Checked.okOr .invalidAccountData
        ((parseTmRoyalty d.bytes).map fun r => (r.1,creatorSlots r.2,r.2.length)) ∧
      parseTmRoyaltyIndexed d.bytes ≠ .error .panicked := by
  refine ⟨parseTmRoyalty_iff,fun t tail hv => ?_,fun d => ⟨parseTmRoyaltyIndexed_eq _ d.fits,?_⟩⟩
  · exact (parseTmRoyalty_iff _ _ _).mpr ⟨t,tail,hv,rfl,rfl,rfl⟩
  · rw [parseTmRoyaltyIndexed_eq _ d.fits]
    intro h
    cases hp : parseTmRoyalty d.bytes with
    | none => rw [hp] at h; cases h
    | some r => rw [hp] at h; cases h

/-! ## The split -/

/-- No share of a 64-bit amount is cut off by the cast. -/
theorem bpsOf_floor {want bps : ℕ} (hw : want ≤ u64Max) (hb : bps ≤ 10000) :
    bpsOf want bps = want*bps/10000 := by
  have hle : want*bps/10000 ≤ want := by
    apply Nat.div_le_of_le_mul
    rw [Nat.mul_comm]
    exact Nat.mul_le_mul_right want hb
  show want*bps/10000 % 2^64 = want*bps/10000
  rw [u64Max] at hw
  exact Nat.mod_eq_of_lt (by omega)

def floorShare (total : ℕ) (sh : UInt8) : ℕ := total*sh.toNat/100

/-- The sum of the floors of shares that together make at most a whole, and the
remainders that are lost. -/
theorem floorShare_sum (total : ℕ) (shares : List UInt8) :
    100*(shares.map (floorShare total)).sum ≤ total*(shares.map UInt8.toNat).sum ∧
    total*(shares.map UInt8.toNat).sum ≤
      100*(shares.map (floorShare total)).sum+99*shares.length := by
  induction shares with
  | nil => simp
  | cons sh shares ih =>
    have hd := Nat.div_add_mod (total*sh.toNat) 100
    have hm := Nat.mod_lt (total*sh.toNat) (show 100 > 0 by decide)
    simp only [List.map_cons, List.sum_cons, List.length_cons, Nat.mul_add, floorShare] at ih ⊢
    omega

/-- The loop neither wraps nor overflows while its floors stay within the total. -/
theorem splitFloors_eq (total : ℕ) (shares : List UInt8) (paid : ℕ) (ht : total ≤ u64Max)
    (h : paid+(shares.map (floorShare total)).sum ≤ total) :
    splitFloors total shares paid =
      some (shares.map (floorShare total),paid+(shares.map (floorShare total)).sum) := by
  induction shares generalizing paid with
  | nil => rfl
  | cons sh shares ih =>
    rw [List.map_cons, List.sum_cons] at h
    have hlt : floorShare total sh < 2^64 := by
      unfold u64Max at ht
      omega
    have hmod : total*sh.toNat/100 % 2^64 = floorShare total sh := Nat.mod_eq_of_lt hlt
    rw [splitFloors]
    simp only [hmod]
    rw [if_neg (by omega), ih _ (by omega), Option.map_some, List.map_cons, List.sum_cons,
      Nat.add_assoc]

/-- The split of shares that make a whole, in terms of all but the last of them. -/
theorem splitByShare_eq (total : ℕ) (front : List UInt8) (sh : UInt8) (ht : total ≤ u64Max)
    (hm : (front ++ [sh]).length ≤ maxCreators) (hs : (front.map UInt8.toNat).sum+sh.toNat = 100) :
    splitByShare total (front ++ [sh]) =
        some (front.map (floorShare total) ++ [total-(front.map (floorShare total)).sum] ++
          List.replicate (maxCreators-(front ++ [sh]).length) 0) ∧
      (front.map (floorShare total)).sum ≤ total := by
  have hsum := (floorShare_sum total front).1
  have hle : total*(front.map UInt8.toNat).sum ≤ total*100 := Nat.mul_le_mul_left _ (by omega)
  have hpaid : (front.map (floorShare total)).sum ≤ total := by omega
  have hf := splitFloors_eq total front 0 ht (by omega)
  rw [Nat.zero_add] at hf
  constructor
  · have hn : front.length+1 ≤ maxCreators := by simpa using hm
    rw [splitByShare, if_neg (by simp), List.dropLast_concat, hf]
    simp [guard, hpaid, hn]
  · exact hpaid

/-- The last part is its own floor and at most one unit from each other part. -/
theorem last_part (total : ℕ) (front : List UInt8) (sh : UInt8)
    (hs : (front.map UInt8.toNat).sum+sh.toNat = 100) :
    floorShare total sh ≤ total-(front.map (floorShare total)).sum ∧
    total-(front.map (floorShare total)).sum ≤ floorShare total sh+front.length := by
  obtain ⟨hlo,hhi⟩ := floorShare_sum total front
  have hd := Nat.div_add_mod (total*sh.toNat) 100
  have hm := Nat.mod_lt (total*sh.toNat) (show 100 > 0 by decide)
  have he : total*(front.map UInt8.toNat).sum+total*sh.toNat = total*100 := by
    rw [← Nat.mul_add, hs]
  unfold floorShare at *
  constructor <;> omega

/-- The parts of a split: floors, and the whole together. -/
theorem splitByShare_floors (total : ℕ) (shares : List UInt8) (ht : total ≤ u64Max)
    (hn : 1 ≤ shares.length) (hm : shares.length ≤ maxCreators)
    (hs : (shares.map UInt8.toNat).sum = 100) :
    ∃ out, splitByShare total shares = some out ∧ out.length = maxCreators ∧
      (out.take shares.length).sum = total ∧
      ∀ i sh, i < shares.length-1 → shares[i]? = some sh →
        out[i]? = some (total*sh.toNat/100) := by
  obtain ⟨front,sh,rfl⟩ : ∃ front sh, shares = front ++ [sh] :=
    ⟨_,_,(List.dropLast_append_getLast (List.ne_nil_of_length_pos hn)).symm⟩
  have hs' : (front.map UInt8.toNat).sum+sh.toNat = 100 := by simpa using hs
  obtain ⟨he,hpaid⟩ := splitByShare_eq total front sh ht hm hs'
  have hlen : (front ++ [sh]).length = front.length+1 := by simp
  have hparts : (front.map (floorShare total) ++
      [total-(front.map (floorShare total)).sum]).length = front.length+1 := by simp
  rw [hlen] at hm ⊢
  refine ⟨_,he,?_,?_,?_⟩
  · rw [List.length_append, hparts, List.length_replicate, hlen]
    omega
  · rw [← hparts, List.take_left, List.sum_append, List.sum_singleton]
    omega
  · intro i s hi hi'
    have hf : front[i]? = some s := by rwa [List.getElem?_append_left (by omega)] at hi'
    rw [List.append_assoc, List.getElem?_append_left (by rw [List.length_map]; omega),
      List.getElem?_map, hf]
    rfl

/-- The split leaves no dust and never overflows. -/
theorem split_dust_safe (total : ℕ) (shares : List UInt8) (ht : total ≤ u64Max)
    (hn : 1 ≤ shares.length) (hm : shares.length ≤ maxCreators)
    (hs : (shares.map UInt8.toNat).sum = 100) :
    ∃ out, splitByShare total shares = some out ∧ out.length = maxCreators ∧
      (out.take shares.length).sum = total ∧
      (∀ i sh, i < shares.length-1 → shares[i]? = some sh →
        out[i]? = some (total*sh.toNat/100)) ∧
      (∃ sh last, shares[shares.length-1]? = some sh ∧ out[shares.length-1]? = some last ∧
        total*sh.toNat/100 ≤ last ∧ last ≤ total*sh.toNat/100+(shares.length-1)) ∧
      ∀ i, shares.length ≤ i → i < maxCreators → out[i]? = some 0 := by
  obtain ⟨out,he,hsize,htotal,hfloors⟩ := splitByShare_floors total shares ht hn hm hs
  refine ⟨out,he,hsize,htotal,hfloors,?_⟩
  obtain ⟨front,sh,rfl⟩ : ∃ front sh, shares = front ++ [sh] :=
    ⟨_,_,(List.dropLast_append_getLast (List.ne_nil_of_length_pos hn)).symm⟩
  have hs' : (front.map UInt8.toNat).sum+sh.toNat = 100 := by simpa using hs
  -- what comes after the floors is the rest of the total, then empty slots
  obtain ⟨hparts,-⟩ := splitByShare_eq total front sh ht hm hs'
  obtain rfl := Option.some_inj.mp (he.symm.trans hparts)
  have hl := last_part total front sh hs'
  have hlen : (front ++ [sh]).length = front.length+1 := by simp
  have hend : (front.map (floorShare total) ++
      [total-(front.map (floorShare total)).sum]).length = front.length+1 := by simp
  rw [hlen] at hm ⊢
  constructor
  · refine ⟨sh,total-(front.map (floorShare total)).sum,by simp,?_,hl⟩
    rw [List.getElem?_append_left (by omega), List.getElem?_append_right (by simp)]
    simp
  · intro i hi hi'
    rw [List.getElem?_append_right (by omega), hend, List.getElem?_replicate,
      if_pos (by omega)]

theorem split_dust_safe_thirds : ∃ out, splitByShare 10 [33,33,34] = some out ∧
    (out.take 3).sum = 10 := by
  obtain ⟨out,h,-,hs,-⟩ := split_dust_safe 10 [33,33,34] (by decide) (by decide) (by decide)
    (by decide)
  exact ⟨out,h,hs⟩

end Xete.Swap
