import TersePath.Proofs.Path.Reread

namespace TersePath

section Groups

variable {α : Type} {size count : ℕ} {xs : List α}

lemma length_of_mem_groups (h : count * size ≤ xs.length) :
    ∀ group ∈ groups size count xs, group.length = size := by
  induction count generalizing xs with
  | zero => simp [groups]
  | succ count ih =>
    rw [Nat.succ_mul] at h
    rw [groups, List.forall_mem_cons]
    refine ⟨?_, ih ?_⟩
    · rw [List.length_take]
      omega
    · rw [List.length_drop]
      omega

lemma flatten_groups (h : xs.length = count * size) : (groups size count xs).flatten = xs := by
  induction count generalizing xs with
  | zero =>
    rw [Nat.zero_mul, List.length_eq_zero_iff] at h
    rw [h, groups, List.flatten_nil]
  | succ count ih =>
    have hdrop : (xs.drop size).length = count * size := by
      rw [List.length_drop, h, Nat.succ_mul, Nat.add_sub_cancel]
    rw [groups, List.flatten_cons, ih hdrop, List.take_append_drop]

end Groups

lemma Kind.arity_eq_zero_iff {kind : Kind} : kind.arity = 0 ↔ kind = .close := by
  cases kind <;> simp [arity]

lemma kind_repeated_arity (letter : Letter) : letter.repeated.kind.arity = letter.kind.arity := by
  obtain ⟨kind, absolute⟩ := letter
  cases kind <;> rfl

namespace Token

variable {token : Token}

/-- A close with operands, or another letter whose operands make up no groups. -/
def Misfit (token : Token) : Prop :=
  token.letter.kind = .close ∧ token.operands ≠ [] ∨
    token.letter.kind ≠ .close ∧
      (token.operands.length = 0 ∨ ¬token.letter.kind.arity ∣ token.operands.length)

/-- Commands that share out the operands of a token. All have its letter, but after a move the second
and later ones draw lines of the same case. -/
structure Shares (token : Token) (run : List Command) : Prop where
  operands : run.flatMap Command.operands = token.operands
  wellFormed : ∀ command ∈ run, command.WellFormed
  letters : run.map Command.letter = token.letter :: List.replicate (run.length - 1)
    (if token.letter.kind = .move then ⟨.line, token.letter.absolute⟩ else token.letter)
  bare : ∀ command ∈ run, command.Bare

lemma shares_close (hclose : token.letter.kind = .close) (hnone : token.operands = []) :
    token.Shares [{ letter := token.letter, operands := [] }] where
  operands := hnone.symm
  wellFormed := List.forall_mem_singleton.mpr (Kind.arity_eq_zero_iff.mpr hclose).symm
  letters := rfl
  bare := by simp [Command.Bare]

lemma shares_groups {first : List Binary64} {rest : List (List Binary64)}
    (hflat : (first :: rest).flatten = token.operands)
    (hlength : ∀ group ∈ first :: rest, group.length = token.letter.kind.arity) :
    token.Shares ({ letter := token.letter, operands := first } ::
      rest.map fun operands => { letter := token.letter.repeated, operands }) where
  operands := by
    rw [← hflat, List.flatMap_cons, List.flatMap_map, List.flatten_cons, List.flatMap_id']
  wellFormed := by
    obtain ⟨hfirst, hrest⟩ := List.forall_mem_cons.mp hlength
    refine List.forall_mem_cons.mpr ⟨hfirst, fun command hcommand => ?_⟩
    obtain ⟨operands, hoperands, rfl⟩ := List.mem_map.mp hcommand
    exact (hrest operands hoperands).trans (kind_repeated_arity _).symm
  letters := by
    rw [List.map_cons, List.map_map, List.length_cons, List.length_map, Nat.add_sub_cancel]
    exact congrArg (token.letter :: ·) List.map_const'
  bare := List.forall_mem_cons.mpr ⟨⟨rfl, rfl⟩, fun command hcommand => by
    obtain ⟨operands, -, rfl⟩ := List.mem_map.mp hcommand
    exact ⟨rfl, rfl⟩⟩

lemma commands_cases (token : Token) :
    token.Misfit ∧ (∃ fault, token.commands = .error fault) ∨
      ¬token.Misfit ∧ ∃ run, token.commands = .ok run ∧ token.Shares run := by
  by_cases hclose : token.letter.kind = .close
  · have harity := Kind.arity_eq_zero_iff.mpr hclose
    by_cases hnone : token.operands = []
    · refine Or.inr ⟨by simp [Misfit, hclose, hnone], _, ?_, shares_close hclose hnone⟩
      simp [commands, harity, hnone]
    · refine Or.inl ⟨Or.inl ⟨hclose, hnone⟩, .operandsOfClose token.source, ?_⟩
      simp [commands, harity, hnone]
  · have harity : token.letter.kind.arity ≠ 0 := mt Kind.arity_eq_zero_iff.mp hclose
    by_cases hcount : token.operands.length = 0 ∨ ¬token.letter.kind.arity ∣ token.operands.length
    · refine Or.inl ⟨Or.inr ⟨hclose, hcount⟩, .operandCount token.letter token.operands.length token.source, ?_⟩
      rw [Nat.dvd_iff_mod_eq_zero] at hcount
      simp only [commands, harity, if_false, ne_eq, hcount, if_true]
    · refine Or.inr ⟨fun h => h.elim (fun h => hclose h.1) fun h => hcount h.2, ?_⟩
      obtain ⟨hsome, hdvd⟩ := not_or.mp hcount
      have hdiv := (Nat.div_mul_cancel (not_not.mp hdvd)).symm
      have hflat := flatten_groups hdiv
      have hlength := length_of_mem_groups hdiv.ge
      rw [Nat.dvd_iff_mod_eq_zero] at hcount
      simp only [commands, harity, if_false, ne_eq, hcount]
      generalize groups _ _ token.operands = lists at *
      cases lists with
      | nil => exact absurd (congrArg List.length hflat).symm hsome
      | cons first rest => exact ⟨_, rfl, shares_groups hflat hlength⟩

end Token

lemma mapM_eq_ok_iff {α β : Type} {f : α → Except PathFault β} {xs : List α} {ys : List β} :
    xs.mapM f = .ok ys ↔ List.Forall₂ (fun x y => f x = .ok y) xs ys := by
  induction xs generalizing ys with
  | nil =>
    constructor
    · intro h
      obtain rfl : [] = ys := Except.ok.inj h
      exact .nil
    · rintro ⟨⟩
      rfl
  | cons x xs ih =>
    constructor
    · intro h
      rw [List.mapM_cons] at h
      obtain ⟨y, hy, hrest⟩ := bind_eq_ok.mp h
      obtain ⟨others, hothers, hlast⟩ := bind_eq_ok.mp hrest
      obtain rfl : y :: others = ys := Except.ok.inj hlast
      exact .cons hy (ih.mp hothers)
    · rintro (_ | ⟨hy, hothers⟩)
      exact mapM_cons_ok hy (ih.mpr hothers)

end TersePath
