import Mathlib.Data.List.Basic

/-!
# Framed streams

A framing reads one record from the front of a stream and says how many symbols it took. What a
reader of such a stream needs of the decoder is that a record read once is read the same when more
symbols follow (`decode_append`), and that it takes at least one symbol and no more than there are.

`Splits bs ps rest` is the run of a parse-and-consume loop: from `bs` it took the records `ps` and
left `rest`. Loops are deterministic, so the records any run took from a prefix of a stream are a
prefix of the records the whole stream holds (`Splits.prefix_of_append`), and a run that stops where
nothing decodes took exactly what `splitAll` takes (`Splits.eq_splitAll`). `splitWithin` is the loop
with its turns counted.
-/

namespace Verif

/-- A decoder of one record from the front of a stream: a record takes bytes, no more than there
are, and is the same whatever comes behind it. -/
structure Framing (β ρ : Type*) where
  decode : List β → Option ρ
  size : ρ → Nat
  size_pos : ∀ {bs p}, decode bs = some p → 0 < size p
  size_le : ∀ {bs p}, decode bs = some p → size p ≤ bs.length
  decode_append : ∀ {bs p}, decode bs = some p → ∀ more, decode (bs ++ more) = some p

namespace Framing

variable {β ρ : Type*} (F : Framing β ρ)

/-- The loop's runs: `ps` were taken from `bs`, in order, and `rest` was left. -/
inductive Splits : List β → List ρ → List β → Prop
  | nil (bs) : Splits bs [] bs
  | cons {bs p ps rest} : F.decode bs = some p → Splits (bs.drop (F.size p)) ps rest →
      Splits bs (p :: ps) rest

/-- The whole loop: records are taken until nothing decodes. -/
def splitAll (bs : List β) : List ρ × List β :=
  match _h : F.decode bs with
  | none => ([], bs)
  | some p =>
    let r := splitAll (bs.drop (F.size p))
    (p :: r.1, r.2)
termination_by bs.length
decreasing_by
  have hpos := F.size_pos _h
  have hle := F.size_le _h
  rw [List.length_drop]
  omega

theorem splitAll_of_none {bs : List β} (h : F.decode bs = none) : F.splitAll bs = ([], bs) := by
  rw [splitAll]
  split
  · rfl
  · next p hp => rw [hp] at h; cases h

theorem splitAll_of_some {bs : List β} {p : ρ} (h : F.decode bs = some p) :
    F.splitAll bs = (p :: (F.splitAll (bs.drop (F.size p))).1,
      (F.splitAll (bs.drop (F.size p))).2) := by
  rw [splitAll]
  split
  · next hp => rw [hp] at h; cases h
  · next q hq =>
    rw [h] at hq
    cases hq
    rfl

/-- The loop in at most `fuel` turns; `none`: there is more to take. -/
def splitWithin : (fuel : Nat) → List β → Option (List ρ × List β)
  | fuel, bs =>
    match F.decode bs with
    | none => some ([], bs)
    | some p =>
      match fuel with
      | 0 => none
      | fuel + 1 => (splitWithin fuel (bs.drop (F.size p))).map fun r => (p :: r.1, r.2)

/-- Nothing decodes where the loop stops. -/
theorem decode_splitAll_snd (bs : List β) : F.decode (F.splitAll bs).2 = none := by
  induction bs using splitAll.induct F with
  | case1 bs h => rw [F.splitAll_of_none h, h]
  | case2 bs p h ih =>
    rw [F.splitAll_of_some h]
    exact ih

/-- The loop ends after as many turns as records of the least size fit into the stream. -/
theorem splitWithin_eq {least : Nat} (hleast : ∀ {bs p}, F.decode bs = some p → least ≤ F.size p)
    {fuel : Nat} {bs : List β} (h : bs.length < least * (fuel + 1)) :
    F.splitWithin fuel bs = some (F.splitAll bs) := by
  induction fuel generalizing bs with
  | zero =>
    cases hdec : F.decode bs with
    | none => rw [splitWithin, hdec, F.splitAll_of_none hdec]
    | some p =>
      have hsize := hleast hdec
      have hle := F.size_le hdec
      omega
  | succ fuel ih =>
    cases hdec : F.decode bs with
    | none => rw [splitWithin, hdec, F.splitAll_of_none hdec]
    | some p =>
      have hsize := hleast hdec
      have hrest : (bs.drop (F.size p)).length < least * (fuel + 1) := by
        rw [List.length_drop, Nat.sub_lt_iff_lt_add (F.size_le hdec)]
        calc bs.length < least * (fuel + 1 + 1) := h
          _ = least * (fuel + 1) + least := Nat.mul_succ _ _
          _ ≤ least * (fuel + 1) + F.size p := Nat.add_le_add_left hsize _
      rw [splitWithin, hdec, F.splitAll_of_some hdec]
      simp only [ih hrest, Option.map_some]

variable {F}

/-- A stream cut inside its first record holds none. -/
theorem decode_take_of_lt {bs : List β} {p : ρ} {n : Nat} (h : F.decode bs = some p)
    (hn : n < F.size p) : F.decode (bs.take n) = none := by
  cases hdec : F.decode (bs.take n) with
  | none => rfl
  | some q =>
    -- what the cut stream holds, the whole stream holds too
    have hwhole := F.decode_append hdec (bs.drop n)
    rw [List.take_append_drop, h] at hwhole
    cases hwhole
    have hle := F.size_le hdec
    rw [List.length_take] at hle
    omega

/-- A run goes on where it stopped. -/
theorem Splits.append {bs mid rest : List β} {ps qs : List ρ} (h₁ : F.Splits bs ps mid)
    (h₂ : F.Splits mid qs rest) : F.Splits bs (ps ++ qs) rest := by
  induction h₁ with
  | nil => exact h₂
  | cons hp _ ih => exact .cons hp (ih h₂)

/-- One more record. -/
theorem Splits.snoc {bs rest : List β} {ps : List ρ} {p : ρ} (h : F.Splits bs ps rest)
    (hp : F.decode rest = some p) : F.Splits bs (ps ++ [p]) (rest.drop (F.size p)) :=
  h.append (.cons hp (.nil _))

/-- More symbols at the end of the stream change nothing but the rest. -/
theorem Splits.more {bs rest : List β} {ps : List ρ} (h : F.Splits bs ps rest) (more : List β) :
    F.Splits (bs ++ more) ps (rest ++ more) := by
  induction h with
  | nil => exact .nil _
  | cons hp _ ih =>
    refine .cons (F.decode_append hp more) ?_
    rw [List.drop_append_of_le_length (F.size_le hp)]
    exact ih

/-- The loop is deterministic: of two runs from one stream, one is a prefix of the other; where the
second cannot go on, the first is the prefix. -/
theorem Splits.prefix_of {bs rest rest' : List β} {ps qs : List ρ} (h₁ : F.Splits bs ps rest)
    (h₂ : F.Splits bs qs rest') (hend : F.decode rest' = none) : ps <+: qs := by
  induction h₁ generalizing qs with
  | nil => exact List.nil_prefix
  | cons hp _ ih =>
    cases h₂ with
    | nil => rw [hp] at hend; cases hend
    | cons hq hqs =>
      rw [hp] at hq
      cases hq
      exact List.cons_prefix_cons.mpr ⟨rfl, ih hqs⟩

/-- Records taken from a prefix of a stream are a prefix of what the whole stream holds. -/
theorem Splits.prefix_of_append {bs more rest rest' : List β} {ps qs : List ρ}
    (h₁ : F.Splits bs ps rest) (h₂ : F.Splits (bs ++ more) qs rest')
    (hend : F.decode rest' = none) : ps <+: qs :=
  (h₁.more more).prefix_of h₂ hend

/-- What a run to the end still takes where another stopped. -/
theorem Splits.goes_on {bs rest rest' : List β} {ps qs : List ρ} (h₁ : F.Splits bs ps rest)
    (h₂ : F.Splits bs qs rest') (hend : F.decode rest' = none) :
    ∃ more, qs = ps ++ more ∧ F.Splits rest more rest' := by
  induction h₁ generalizing qs with
  | nil => exact ⟨qs, rfl, h₂⟩
  | cons hp _ ih =>
    cases h₂ with
    | nil => rw [hp] at hend; cases hend
    | cons hq hqs =>
      rw [hp] at hq
      cases hq
      obtain ⟨more, rfl, hmore⟩ := ih hqs
      exact ⟨more, rfl, hmore⟩

/-- The symbols taken are those of the records, where a record has one image. -/
theorem Splits.eq_flatMap {encode : ρ → List β}
    (himage : ∀ {bs p}, F.decode bs = some p → encode p = bs.take (F.size p))
    {bs rest : List β} {ps : List ρ} (h : F.Splits bs ps rest) :
    bs = ps.flatMap encode ++ rest := by
  induction h with
  | nil => rfl
  | @cons bs p ps rest hp _ ih =>
    rw [List.flatMap_cons, List.append_assoc, ← ih, himage hp, List.take_append_drop]

/-- A run that stops where nothing decodes is the whole loop. -/
theorem Splits.eq_splitAll {bs rest : List β} {ps : List ρ} (h : F.Splits bs ps rest)
    (hend : F.decode rest = none) : F.splitAll bs = (ps, rest) := by
  induction h with
  | nil => exact F.splitAll_of_none hend
  | cons hp _ ih => rw [F.splitAll_of_some hp, ih hend]

/-- The loop is a run. -/
theorem splits_splitAll (bs : List β) : F.Splits bs (F.splitAll bs).1 (F.splitAll bs).2 := by
  induction bs using splitAll.induct F with
  | case1 bs h =>
    rw [F.splitAll_of_none h]
    exact .nil bs
  | case2 bs p h ih =>
    rw [F.splitAll_of_some h]
    exact .cons h ih

/-- A record behind a stream that was taken whole is taken last. -/
theorem splitAll_append {bs image : List β} {p : ρ} (hbs : (F.splitAll bs).2 = [])
    (himage : F.splitAll image = ([p], [])) :
    F.splitAll (bs ++ image) = ((F.splitAll bs).1 ++ [p], []) := by
  have hfront := (splits_splitAll (F := F) bs).more image
  have hback := splits_splitAll (F := F) image
  rw [hbs, List.nil_append] at hfront
  rw [himage] at hback
  have hend := F.decode_splitAll_snd image
  rw [himage] at hend
  exact (hfront.append hback).eq_splitAll hend

/-- The symbols a run took are gone from the stream. -/
theorem Splits.length_le {bs rest : List β} {ps : List ρ} (h : F.Splits bs ps rest) :
    rest.length ≤ bs.length := by
  induction h with
  | nil => exact Nat.le_refl _
  | cons _ _ ih =>
    rw [List.length_drop] at ih
    omega

/-- A stream made of encoded records splits into exactly these records. -/
theorem splits_flatMap {encode : ρ → List β} {ps : List ρ}
    (hdec : ∀ p ∈ ps, ∀ more, F.decode (encode p ++ more) = some p)
    (hsize : ∀ p ∈ ps, F.size p = (encode p).length) (rest : List β) :
    F.Splits (ps.flatMap encode ++ rest) ps rest := by
  induction ps with
  | nil => exact .nil _
  | cons p ps ih =>
    rw [List.flatMap_cons, List.append_assoc]
    refine .cons (hdec p List.mem_cons_self _) ?_
    rw [hsize p List.mem_cons_self, List.drop_left]
    exact ih (fun q hq => hdec q (List.mem_cons_of_mem _ hq))
      (fun q hq => hsize q (List.mem_cons_of_mem _ hq))

end Framing

end Verif
