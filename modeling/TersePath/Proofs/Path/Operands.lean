import TersePath.Proofs.Number.Value

namespace TersePath

inductive Operands : Kind → List Binary64 → Prop
  | move (x y : Binary64) : Operands .move [x, y]
  | line (x y : Binary64) : Operands .line [x, y]
  | horizontal (x : Binary64) : Operands .horizontal [x]
  | vertical (y : Binary64) : Operands .vertical [y]
  | cubic (x1 y1 x2 y2 x y : Binary64) : Operands .cubic [x1, y1, x2, y2, x, y]
  | smoothCubic (x2 y2 x y : Binary64) : Operands .smoothCubic [x2, y2, x, y]
  | quadratic (x1 y1 x y : Binary64) : Operands .quadratic [x1, y1, x, y]
  | smoothQuadratic (x y : Binary64) : Operands .smoothQuadratic [x, y]
  | arc (rx ry rotation large sweep x y : Binary64) :
      Operands .arc [rx, ry, rotation, large, sweep, x, y]
  | close : Operands .close []

lemma exists_of_length_one {α : Type} {xs : List α} (h : xs.length = 1) : ∃ a, xs = [a] :=
  List.length_eq_one_iff.mp h

lemma exists_cons_of_length_succ {α : Type} {xs : List α} {n : ℕ} (h : xs.length = n + 1) :
    ∃ a rest, xs = a :: rest ∧ rest.length = n := by
  cases xs with
  | nil => simp at h
  | cons a rest => exact ⟨a, rest, rfl, by simpa using h⟩

lemma exists_of_length_two {α : Type} {xs : List α} (h : xs.length = 2) : ∃ a b, xs = [a, b] :=
  List.length_eq_two.mp h

lemma exists_of_length_four {α : Type} {xs : List α} (h : xs.length = 4) :
    ∃ a b c d, xs = [a, b, c, d] := by
  obtain ⟨a, ys, rfl, hys⟩ := exists_cons_of_length_succ h
  obtain ⟨b, c, d, rfl⟩ := List.length_eq_three.mp hys
  exact ⟨a, b, c, d, rfl⟩

lemma exists_of_length_six {α : Type} {xs : List α} (h : xs.length = 6) :
    ∃ a b c d e f, xs = [a, b, c, d, e, f] := by
  obtain ⟨a, ys, rfl, hys⟩ := exists_cons_of_length_succ h
  obtain ⟨b, zs, rfl, hzs⟩ := exists_cons_of_length_succ hys
  obtain ⟨c, d, e, f, rfl⟩ := exists_of_length_four hzs
  exact ⟨a, b, c, d, e, f, rfl⟩

lemma Command.WellFormed.operands {command : Command} (h : command.WellFormed) :
    Operands command.kind command.operands := by
  rw [WellFormed] at h
  generalize command.kind = kind at *
  generalize command.operands = xs at *
  cases kind with
  | move =>
    obtain ⟨x, y, rfl⟩ := exists_of_length_two h
    exact .move x y
  | line =>
    obtain ⟨x, y, rfl⟩ := exists_of_length_two h
    exact .line x y
  | horizontal =>
    obtain ⟨x, rfl⟩ := exists_of_length_one h
    exact .horizontal x
  | vertical =>
    obtain ⟨y, rfl⟩ := exists_of_length_one h
    exact .vertical y
  | cubic =>
    obtain ⟨x1, y1, x2, y2, x, y, rfl⟩ := exists_of_length_six h
    exact .cubic x1 y1 x2 y2 x y
  | smoothCubic =>
    obtain ⟨x2, y2, x, y, rfl⟩ := exists_of_length_four h
    exact .smoothCubic x2 y2 x y
  | quadratic =>
    obtain ⟨x1, y1, x, y, rfl⟩ := exists_of_length_four h
    exact .quadratic x1 y1 x y
  | smoothQuadratic =>
    obtain ⟨x, y, rfl⟩ := exists_of_length_two h
    exact .smoothQuadratic x y
  | arc =>
    obtain ⟨rx, ys, rfl, hys⟩ := exists_cons_of_length_succ (n := 6) h
    obtain ⟨ry, rotation, large, sweep, x, y, rfl⟩ := exists_of_length_six hys
    exact .arc rx ry rotation large sweep x y
  | close =>
    obtain rfl := List.length_eq_zero_iff.mp h
    exact .close

namespace Command

/-- As many operands as the kind takes, all of them finite. -/
def Proper (command : Command) : Prop :=
  command.WellFormed ∧ ∀ x ∈ command.operands, x.isFinite = true

instance (command : Command) : Decidable command.Proper := inferInstanceAs (Decidable (_ ∧ _))

/-- No flag and no second spelling, as a command comes from a text. -/
def Bare (command : Command) : Prop :=
  command.closesSubpath = false ∧ command.absoluteText = none

instance (command : Command) : Decidable command.Bare := inferInstanceAs (Decidable (_ ∧ _))

lemma isRelative_iff {command : Command} {kind : Kind} :
    command.isRelative kind = true ↔ command.letter = ⟨kind, false⟩ := by
  simp [isRelative]

lemma exists_of_isRelative {command : Command} {kind : Kind} (hp : command.Proper)
    (h : command.isRelative kind) :
    Operands kind command.operands ∧ command.kind = kind ∧ command.absolute = false := by
  have hl := isRelative_iff.mp h
  have hk : command.kind = kind := by rw [Command.kind, hl]
  refine ⟨hk ▸ hp.1.operands, hk, ?_⟩
  rw [Command.absolute, hl]

end Command

end TersePath
