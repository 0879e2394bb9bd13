import TersePath.Proofs.Number.Twin
import TersePath.Proofs.Path.Edits

namespace TersePath

open Binary64 Edit

/-- The curve of a relative cubic; that of a smooth one as if there were nothing to reflect. -/
def Command.curve? (command : Command) : Option Cubic :=
  if command.isRelative .cubic then
    match command.operands with
    | [x1, y1, x2, y2, x, y] => some ⟨x1, y1, x2, y2, x, y⟩
    | _ => none
  else if command.isRelative .smoothCubic then
    match command.operands with
    | [x2, y2, x, y] => some ⟨.zero, .zero, x2, y2, x, y⟩
    | _ => none
  else none

namespace Cubic

def straight (c : Cubic) : Bool :=
  c.x1.isZero && c.y1.isZero && ((c.x2.isZero && c.y2.isZero) || onChord c.x2 c.y2 c.x c.y)

def still (c : Cubic) : Bool := c.x1.isZero && c.y1.isZero && c.x.isZero && c.y.isZero

def axial (c : Cubic) : Bool :=
  ([.zero, c.x1, c.x2, c.x].all Binary64.isZero && monotonic [.zero, c.y1, c.y2, c.y]) ||
    ([.zero, c.y1, c.y2, c.y].all Binary64.isZero && monotonic [.zero, c.x1, c.x2, c.x])

/-- The same curve up to the signs of zeros. -/
structure Twins (c d : Cubic) : Prop where
  x1 : Twin c.x1 d.x1
  y1 : Twin c.y1 d.y1
  x2 : Twin c.x2 d.x2
  y2 : Twin c.y2 d.y2
  x : Twin c.x d.x
  y : Twin c.y d.y

namespace Twins

variable {c d : Cubic}

lemma refl (c : Cubic) : c.Twins c := ⟨.refl _, .refl _, .refl _, .refl _, .refl _, .refl _⟩

lemma straight (h : c.Twins d) : d.straight = c.straight := by
  simp only [Cubic.straight, h.x1.isZero, h.y1.isZero, h.x2.isZero, h.y2.isZero,
    onChord_congr h.x2 h.y2 h.x h.y]

lemma still (h : c.Twins d) : d.still = c.still := by
  simp only [Cubic.still, h.x1.isZero, h.y1.isZero, h.x.isZero, h.y.isZero]

lemma axial (h : c.Twins d) : d.axial = c.axial := by
  simp only [Cubic.axial, List.all_cons, h.x1.isZero, h.y1.isZero, h.x2.isZero, h.y2.isZero, h.x.isZero,
    h.y.isZero, monotonic_congr (.refl zero) h.x1 h.x2 h.x, monotonic_congr (.refl zero) h.y1 h.y2 h.y]

end Twins

end Cubic

section Curve

variable {previous next : Option Command} {command : Command} {c : Cubic}

lemma curve_cases (h : command.curve? = some c) :
    command.isRelative .cubic = true ∧ command.operands = c.operands ∨
      command.isRelative .smoothCubic = true ∧ command.operands = [c.x2, c.y2, c.x, c.y] ∧
        c.x1 = .zero ∧ c.y1 = .zero := by
  rw [Command.curve?] at h
  split at h
  · next hcubic =>
    split at h
    · next ho =>
      obtain rfl := Option.some.inj h
      exact Or.inl ⟨hcubic, ho⟩
    · cases h
  · split at h
    · next hsmooth =>
      split at h
      · next ho =>
        obtain rfl := Option.some.inj h
        exact Or.inr ⟨hsmooth, ho, rfl, rfl⟩
      · cases h
    · cases h

lemma curve_of_cubic (h : command.isRelative .cubic) (ho : command.operands = c.operands) :
    command.curve? = some c := by
  rw [Command.curve?, if_pos h, ho]
  rfl

lemma curve_of_smooth (h : command.isRelative .smoothCubic) {x2 y2 x y : Binary64}
    (ho : command.operands = [x2, y2, x, y]) : command.curve? = some ⟨.zero, .zero, x2, y2, x, y⟩ := by
  have hplain : command.isRelative .cubic = false := by
    rw [Bool.eq_false_iff]
    intro hcubic
    cases (kind_of_isRelative h).symm.trans (kind_of_isRelative hcubic)
  rw [Command.curve?, hplain, h, ho]
  rfl

lemma isCubic_of_curve (h : command.curve? = some c) : command.kind.isCubic := by
  rcases curve_cases h with ⟨hk, -⟩ | ⟨hk, -⟩ <;> rw [kind_of_isRelative hk] <;> rfl

lemma exists_of_isOrphanSmooth (h : command.isOrphanSmooth previous) :
    ∃ b ∈ previous, b.kind.isCubic = false := by
  obtain ⟨b, hb, hplain⟩ := (Option.any_eq_true ..).mp (Bool.and_eq_true_iff.mp h).2
  exact ⟨b, hb, Bool.not_eq_true' _ ▸ hplain⟩

lemma asCubic_eq_some : command.asCubic previous = some c ↔ command.curve? = some c ∧
    (command.kind = .cubic ∨ ∃ b ∈ previous, b.kind.isCubic = false) := by
  constructor
  · intro h
    rcases asCubic_cases h with ⟨hcubic, ho⟩ | ⟨horphan, ho, hx, hy⟩
    · exact ⟨curve_of_cubic hcubic ho, Or.inl (kind_of_isRelative hcubic)⟩
    · refine ⟨?_, Or.inr (exists_of_isOrphanSmooth horphan)⟩
      obtain ⟨x1, y1, x2, y2, x, y⟩ := c
      obtain rfl : x1 = .zero := hx
      obtain rfl : y1 = .zero := hy
      exact curve_of_smooth (Bool.and_eq_true_iff.mp horphan).1 ho
  · rintro ⟨h, hopen⟩
    rcases curve_cases h with ⟨hcubic, ho⟩ | ⟨hsmooth, ho, hx, hy⟩
    · rw [Command.asCubic, if_pos hcubic, ho]
      rfl
    · have hplain : command.isRelative .cubic = false := by
        rw [Bool.eq_false_iff]
        intro hcubic
        cases (kind_of_isRelative hsmooth).symm.trans (kind_of_isRelative hcubic)
      obtain ⟨b, hb, hbefore⟩ := hopen.resolve_left (by simp [kind_of_isRelative hsmooth])
      have horphan : command.isOrphanSmooth previous = true := by
        rw [Command.isOrphanSmooth, hsmooth, Bool.true_and, Option.any_eq_true]
        exact ⟨b, hb, by rw [hbefore]; rfl⟩
      obtain ⟨x1, y1, x2, y2, x, y⟩ := c
      obtain rfl : x1 = .zero := hx
      obtain rfl : y1 = .zero := hy
      rw [Command.asCubic, hplain, horphan, ho]
      rfl

lemma canFlatten_of_canDrop (h : canDrop previous command next) : canFlatten command next := by
  rw [canDrop] at h
  rw [canFlatten]
  cases hfollower : Command.follower? next with
  | none => rfl
  | some follower =>
    rw [hfollower] at h
    exact (Bool.and_eq_true_iff.mp h).1

lemma straight_of_still {c : Cubic} (hc : command.curve? = some c) (hstill : c.still)
    (hend : command.endsAtControl) : c.straight := by
  have hcontrol : c.x2.equals c.x && c.y2.equals c.y := by
    rcases curve_cases hc with ⟨-, ho⟩ | ⟨-, ho, -⟩
    all_goals
      rw [Command.endsAtControl, ho] at hend
      exact hend
  simp only [Cubic.still, Bool.and_eq_true] at hstill hcontrol
  obtain ⟨⟨⟨hx1, hy1⟩, hx⟩, hy⟩ := hstill
  have hzero : ∀ {a b : Binary64}, a.equals b → b.isZero → a.isZero := fun {a b} hab hb =>
    (Twin.equals (.refl a) (Or.inr ⟨rfl, hb⟩ : Twin zero b)).symm.trans hab
  simp only [Cubic.straight, hx1, hy1, hzero hcontrol.1 hx, hzero hcontrol.2 hy, Bool.and_self,
    Bool.true_or]

lemma still_straightCubic_iff : Still straightCubic previous command next ↔
    ∀ c, command.asCubic previous = some c → ¬(c.straight ∧ canFlatten command next) ∧
      ¬(c.still ∧ canDrop previous command next) := by
  rw [Still, straightCubic]
  split
  · next hnone => simp [hnone]
  · next c hc =>
    simp only [hc, Option.some.injEq, forall_eq', Cubic.straight, Cubic.still, Bool.and_eq_true,
      Bool.or_eq_true]
    split
    · next hzero =>
      split
      · next hflat =>
        simp only [reduceCtorEq, false_iff]
        exact fun hkeep => hkeep.1 ⟨⟨hzero, hflat.1⟩, hflat.2⟩
      · next hflat =>
        split
        · next hdrop =>
          simp only [reduceCtorEq, false_iff]
          exact fun hkeep => hkeep.2 ⟨⟨⟨hzero, hdrop.1.1⟩, hdrop.1.2⟩, hdrop.2⟩
        · next hdrop =>
          simp only [true_iff]
          exact ⟨fun h => hflat ⟨h.1.2, h.2⟩, fun h => hdrop ⟨⟨h.1.1.2, h.1.2⟩, h.2⟩⟩
    · next hzero =>
      simp only [true_iff]
      exact ⟨fun h => hzero h.1.1, fun h => hzero h.1.1.1⟩

lemma still_axisCubic_iff : Still axisCubic previous command next ↔
    ∀ c, command.asCubic previous = some c → ¬(c.axial ∧ canFlatten command next) := by
  rw [Still, axisCubic]
  split
  · next hnone => simp [hnone]
  · next c hc =>
    simp only [hc, Option.some.injEq, forall_eq', Cubic.axial, Bool.or_eq_true]
    cases canFlatten command next with
    | false => simp
    | true =>
      simp only [Bool.not_true, Bool.false_eq_true, if_false, and_true]
      split
      · next hx => exact ⟨fun h => Edit.noConfusion h, fun h => absurd (Or.inl hx) h⟩
      · next hx =>
        split
        · next hy => exact ⟨fun h => Edit.noConfusion h, fun h => absurd (Or.inr hy) h⟩
        · next hy => exact ⟨fun _ h => h.elim hx hy, fun _ => rfl⟩

end Curve

end TersePath
