import TersePath.Proofs.Number.Value

namespace TersePath.Picture

abbrev Point := ℚ × ℚ

inductive Stroke where
  | line (a b : Point)
  | cubic (a p q b : Point)
  | quadratic (a p b : Point)
  | arc (a radii : Point) (manner : List ℚ) (b : Point)
  | close (a b : Point)
deriving DecidableEq

def cross (u v : Point) : ℚ := u.1 * v.2 - u.2 * v.1

def dot (u v : Point) : ℚ := u.1 * v.1 + u.2 * v.2

def AlongChord (a p q b : Point) : Prop :=
  a ≠ b ∧ cross (p - a) (b - a) = 0 ∧ cross (q - a) (b - a) = 0 ∧ 0 ≤ dot (p - a) (b - a) ∧
    dot (p - a) (b - a) ≤ dot (q - a) (b - a) ∧ dot (q - a) (b - a) ≤ dot (b - a) (b - a)

instance (a p q b : Point) : Decidable (AlongChord a p q b) := inferInstanceAs (Decidable (_ ∧ _))

def OneWay (a b c : Point) : Prop :=
  (a.2 = b.2 ∧ b.2 = c.2 ∧ 0 < (b.1 - a.1) * (c.1 - b.1)) ∨
    (a.1 = b.1 ∧ b.1 = c.1 ∧ 0 < (b.2 - a.2) * (c.2 - b.2))

instance (a b c : Point) : Decidable (OneWay a b c) := inferInstanceAs (Decidable (_ ∨ _))

namespace Stroke

def seen : Stroke → Option Stroke
  | line a b => if a = b then none else some (line a b)
  | close a b => if a = b then none else some (close a b)
  | cubic a p q b =>
    if p = a ∧ b = a then none
    else if AlongChord a p q b then some (line a b)
    else some (cubic a p q b)
  | stroke => some stroke

def joined : Stroke → Stroke → Option Stroke
  | line a b, line c d => if b = c ∧ OneWay a b d then some (line a d) else none
  | _, _ => none

def isCubic : Stroke → Bool
  | cubic .. => true
  | _ => false

end Stroke

inductive Mark where
  | gap
  | stroke (s : Stroke)
deriving DecidableEq

namespace Mark

def seen : Mark → Option Mark
  | gap => some gap
  | stroke s => s.seen.map stroke

def stroke? : Mark → Option Stroke
  | gap => none
  | stroke s => some s

def isCubic : Mark → Bool
  | gap => false
  | stroke s => s.isCubic

/-- A mark in front of others that are joined already; a gap counts only between strokes. -/
def join : Mark → List Mark → List Mark
  | gap, [] => []
  | gap, gap :: rest => gap :: rest
  | gap, stroke t :: rest => gap :: stroke t :: rest
  | stroke s, [] => [stroke s]
  | stroke s, gap :: rest => stroke s :: gap :: rest
  | stroke s, stroke t :: rest =>
    match s.joined t with
    | some u => stroke u :: rest
    | none => stroke s :: stroke t :: rest

def joinAll (marks rest : List Mark) : List Mark := marks.foldr join rest

end Mark

open Mark (join joinAll)

lemma join_gap_gap (rest : List Mark) : join .gap (join .gap rest) = join .gap rest := by
  rcases rest with _ | ⟨_ | _, _⟩ <;> rfl

lemma joinAll_append (xs ys rest : List Mark) :
    joinAll (xs ++ ys) rest = joinAll xs (joinAll ys rest) := by
  simp [joinAll, List.foldr_append]

lemma oneWay_extend {a b c d : Point} (h : OneWay a b c) (h' : OneWay b c d) :
    OneWay a b d ∧ OneWay a c d := by
  rcases h with ⟨h1, h2, h3⟩ | ⟨h1, h2, h3⟩ <;> rcases h' with ⟨h4, h5, h6⟩ | ⟨h4, h5, h6⟩
  · refine ⟨Or.inl ⟨h1, h2.trans h5, ?_⟩, Or.inl ⟨h1.trans h2, h5, ?_⟩⟩ <;>
      rcases mul_pos_iff.mp h3 with ⟨h7, h8⟩ | ⟨h7, h8⟩ <;> nlinarith
  · simp [h4] at h3
  · simp [h4] at h3
  · refine ⟨Or.inr ⟨h1, h2.trans h5, ?_⟩, Or.inr ⟨h1.trans h2, h5, ?_⟩⟩ <;>
      rcases mul_pos_iff.mp h3 with ⟨h7, h8⟩ | ⟨h7, h8⟩ <;> nlinarith

lemma oneWay_of_longer {a b c d : Point} (h : OneWay a b c) (h' : OneWay a c d) : OneWay b c d := by
  rcases h with ⟨h1, h2, h3⟩ | ⟨h1, h2, h3⟩ <;> rcases h' with ⟨h4, h5, h6⟩ | ⟨h4, h5, h6⟩
  · refine Or.inl ⟨h2, h5, ?_⟩
    rcases mul_pos_iff.mp h3 with ⟨h7, h8⟩ | ⟨h7, h8⟩ <;> nlinarith
  · rw [h4] at h3
    nlinarith [mul_self_nonneg (b.1 - c.1)]
  · rw [h4] at h3
    nlinarith [mul_self_nonneg (b.2 - c.2)]
  · refine Or.inr ⟨h2, h5, ?_⟩
    rcases mul_pos_iff.mp h3 with ⟨h7, h8⟩ | ⟨h7, h8⟩ <;> nlinarith

lemma joined_eq_some {s t u : Stroke} (h : s.joined t = some u) :
    ∃ a b c, s = .line a b ∧ t = .line b c ∧ u = .line a c ∧ OneWay a b c := by
  cases s <;> cases t <;> simp only [Stroke.joined, reduceCtorEq] at h
  split at h
  · next hw =>
    obtain ⟨rfl, hw⟩ := hw
    exact ⟨_, _, _, rfl, rfl, (Option.some.inj h).symm, hw⟩
  · exact absurd h (by simp)

lemma joined_line {a b c : Point} (h : OneWay a b c) :
    (Stroke.line a b).joined (.line b c) = some (.line a c) := by
  simp [Stroke.joined, h]

lemma join_joined {s t u : Stroke} (h : s.joined t = some u) (rest : List Mark) :
    join (.stroke s) (join (.stroke t) rest) = join (.stroke u) rest := by
  rcases rest with _ | ⟨_ | w, rest⟩
  · simp [join, h]
  · simp [join, h]
  obtain ⟨a, b, c, rfl, rfl, rfl, habc⟩ := joined_eq_some h
  cases hw : (Stroke.line b c).joined w with
  | some v =>
    obtain ⟨_, _, d, he, rfl, rfl, hbcd⟩ := joined_eq_some hw
    obtain ⟨rfl, rfl⟩ := Stroke.line.inj he
    obtain ⟨habd, hacd⟩ := oneWay_extend habc hbcd
    simp only [join, hw, joined_line habd, joined_line hacd]
  | none =>
    have hu : (Stroke.line a c).joined w = none := by
      cases hx : (Stroke.line a c).joined w with
      | none => rfl
      | some v =>
        obtain ⟨_, _, d, he, rfl, rfl, hacd⟩ := joined_eq_some hx
        obtain ⟨rfl, rfl⟩ := Stroke.line.inj he
        rw [joined_line (oneWay_of_longer habc hacd)] at hw
        exact absurd hw (by simp)
    simp only [join, hw, hu, h]

end TersePath.Picture
