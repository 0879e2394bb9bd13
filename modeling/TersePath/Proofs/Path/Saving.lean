import TersePath.Proofs.Number.Twin
import TersePath.Proofs.Path.Length

namespace TersePath

section Text

lemma spelling_ne_nil (x : Binary64) : x.spelling ≠ [] := by
  cases x with
  | nan => simp [Binary64.spelling]
  | infinite s => simp [Binary64.spelling]
  | finite s n hn =>
    rw [Binary64.spelling]
    split
    · simp [integerText, Nat.toDigits_ne_nil]
    · simp

lemma length_nextOperand (spaced : Bool) (text : List Char) :
    text.length ≤ (nextOperand spaced text).length := by
  rw [nextOperand]
  split <;> simp

lemma length_operandsText_cons (spaced : Bool) (x : Binary64) (rest : List Binary64) :
    (operandsText spaced rest).length + 1 ≤ (operandsText spaced (x :: rest)).length := by
  have hx := List.length_pos_of_ne_nil (spelling_ne_nil x)
  cases rest with
  | nil =>
    simp only [operandsText, List.flatMap_nil, List.append_nil, List.length_nil]
    omega
  | cons y rest =>
    have hy := length_nextOperand spaced y.spelling
    simp only [operandsText, List.flatMap_cons, List.length_append]
    omega

lemma length_operandsText_pair (spaced : Bool) (x y : Binary64) :
    (operandsText spaced [x]).length + 1 ≤ (operandsText spaced [x, y]).length := by
  have hy := List.length_pos_of_ne_nil (spelling_ne_nil y)
  have hnext := length_nextOperand spaced y.spelling
  simp only [operandsText, List.flatMap_cons, List.flatMap_nil, List.length_append, List.length_nil]
  omega

lemma length_le_leastLength (text : List Char) : text.length ≤ leastLength text + 1 :=
  length_le_writtenLength

end Text

section Respelling

variable {previous : Option Command} {command other : Command}

lemma length_asCubic {c : Cubic} (h : command.asCubic previous = some c) :
    (operandsText false [c.x, c.y]).length + 2 ≤ (operandsText false command.operands).length := by
  have htail : (operandsText false [c.x, c.y]).length + 2 ≤
      (operandsText false [c.x2, c.y2, c.x, c.y]).length := by
    have h2 := length_operandsText_cons false c.x2 [c.y2, c.x, c.y]
    have h1 := length_operandsText_cons false c.y2 [c.x, c.y]
    omega
  obtain ⟨-, ho⟩ | ⟨-, ho, -, -⟩ := asCubic_cases h
  · have h4 := length_operandsText_cons false c.x1 [c.y1, c.x2, c.y2, c.x, c.y]
    have h3 := length_operandsText_cons false c.y1 [c.x2, c.y2, c.x, c.y]
    rw [ho, Cubic.operands]
    omega
  · rw [ho]
    exact htail

lemma length_text (spaced : Bool) (command : Command) :
    (command.text spaced).length = (operandsText spaced command.operands).length + 1 := by
  rw [Command.text, List.length_cons]

lemma length_reshape (command : Command) (kind : Kind) (operands : List Binary64)
    (h : (operandsText false operands).length + 2 ≤ (operandsText false command.operands).length) :
    ((command.reshape kind operands).text false).length < leastLength (command.text false) := by
  have hle := length_le_leastLength (command.text false)
  rw [length_text] at hle ⊢
  change (operandsText false operands).length + 1 < _
  omega

lemma saves_flat (command : Command) : command.flat = command ∨
    (command.flat.text false).length < leastLength (command.text false) := by
  obtain hflat | ⟨x, y, ho, hline, ⟨hy, hflat⟩ | ⟨-, hx, hflat⟩⟩ := flat_cases command
  · exact Or.inl hflat
  · refine Or.inr (hflat ▸ length_reshape command .horizontal [x] ?_)
    rw [ho, operandsText, operandsText, List.flatMap_cons, Binary64.spelling_of_isZero hy]
    simp [nextOperand]
  · -- a line that begins with a zero does not lose its letter
    refine Or.inr ?_
    have htext : command.text false = 'l' :: '0' :: nextOperand false y.spelling := by
      rw [Command.text, Command.isRelative_iff.mp hline, ho, operandsText, Binary64.spelling_of_isZero hx]
      simp [Letter.char, Kind.char]
    have hleast : leastLength (command.text false) = (command.text false).length := by
      rw [htext]
      rfl
    have hnext := length_nextOperand false y.spelling
    rw [hleast, htext, hflat, length_text]
    change (operandsText false [y]).length + 1 < _
    simp only [operandsText, List.flatMap_nil, List.append_nil, List.length_cons]
    omega

lemma Replaces.saves (h : Replaces previous command other) :
    command.kind = .smoothCubic ∧ other.kind = .cubic ∨ other = command ∨
      (other.text false).length < leastLength (command.text false) := by
  cases h with
  | straight c hc => exact Or.inr (Or.inr (length_reshape _ _ _ (length_asCubic hc)))
  | vertical c hc =>
    have hy := length_operandsText_cons false c.x [c.y]
    have hcubic := length_asCubic hc
    exact Or.inr (Or.inr (length_reshape _ _ _ (by omega)))
  | horizontal c hc =>
    have hx := length_operandsText_pair false c.x c.y
    have hcubic := length_asCubic hc
    exact Or.inr (Or.inr (length_reshape _ _ _ (by omega)))
  | spelledOut h => exact Or.inl ⟨kind_of_isOrphanSmooth h, rfl⟩
  | smooth x1 y1 rest ho =>
    have hx := length_operandsText_cons false x1 (y1 :: rest)
    have hy := length_operandsText_cons false y1 rest
    refine Or.inr (Or.inr (length_reshape _ _ _ ?_))
    rw [ho]
    omega
  | flat => exact Or.inr (saves_flat command)

lemma close_flat (command : Command) : command.flat.kind = .close ↔ command.kind = .close := by
  obtain hflat | ⟨hline, hk | hk⟩ := kind_flat command
  · rw [hflat]
  all_goals
    rw [hline, hk]
    decide

lemma Replaces.close_iff (h : Replaces previous command other) :
    other.kind = .close ↔ command.kind = .close := by
  have hreshape : ∀ kind operands, kind ≠ .close → command.kind ≠ .close →
      ((command.reshape kind operands).kind = .close ↔ command.kind = .close) :=
    fun kind operands hkind hopen => iff_of_false hkind hopen
  have hcubic : ∀ c, command.asCubic previous = some c → command.kind ≠ .close := by
    intro c hc hclose
    have hk := kind_of_asCubic hc
    rw [hclose] at hk
    cases hk
  cases h with
  | straight c hc => exact hreshape _ _ (by decide) (hcubic c hc)
  | vertical c hc => exact hreshape _ _ (by decide) (hcubic c hc)
  | horizontal c hc => exact hreshape _ _ (by decide) (hcubic c hc)
  | spelledOut h => exact hreshape _ _ (by decide) (by rw [kind_of_isOrphanSmooth h]; decide)
  | smooth x1 y1 rest ho h => exact hreshape _ _ (by decide) (by rw [kind_of_isRelative h]; decide)
  | flat => exact close_flat command

end Respelling

def Command.keptText (command : Command) : List Char := command.absoluteText.getD []

/-- A command is not written longer than it was, even where the letter was left out or a letter after it. -/
def Command.Thrifty (command : Command) : Prop :=
  command.kind = .close ∨ ∃ kept, command.absoluteText = some kept ∧ kept ≠ [] ∧
    (Compacts kept.head? → command.text false = kept ∨ (command.text false).length < leastLength kept)

/-- No smooth cubic was written with a letter that can be left out, as long as no rule made one. -/
def Command.Unsmoothed (command : Command) : Prop :=
  command.Thrifty ∧ (command.kind = .smoothCubic → ¬ Compacts command.keptText.head?)

section Thrifty

variable {previous next : Option Command} {command other : Command}

lemma keptText_of_eq {kept : List Char} (h : command.absoluteText = some kept) : command.keptText = kept := by
  rw [Command.keptText, h, Option.getD_some]

lemma Command.Thrifty.keptText_ne_nil (h : command.Thrifty) (hclose : command.kind ≠ .close) :
    command.keptText ≠ [] := by
  obtain ⟨kept, hkept, hne, -⟩ := h.resolve_left hclose
  rwa [keptText_of_eq hkept]

lemma Replaces.keptText (h : Replaces previous command other) : other.keptText = command.keptText := by
  rw [Command.keptText, h.absoluteText, Command.keptText]

lemma Command.Thrifty.replaced (h : command.Thrifty) (hother : Replaces previous command other)
    (hsmooth : command.kind = .smoothCubic → ¬ Compacts command.keptText.head?) : other.Thrifty := by
  obtain hclose | ⟨kept, hkept, hne, hsaved⟩ := h
  · exact Or.inl (hother.close_iff.mpr hclose)
  refine Or.inr ⟨kept, hother.absoluteText.trans hkept, hne, fun hcompacts => ?_⟩
  obtain ⟨hk, -⟩ | rfl | hless := hother.saves
  · rw [keptText_of_eq hkept] at hsmooth
    exact absurd hcompacts (hsmooth hk)
  · exact hsaved hcompacts
  · refine Or.inr ?_
    rcases hsaved hcompacts with htext | hshort
    · rwa [htext] at hless
    · have hle : leastLength (command.text false) ≤ _ := writtenLength_le
      omega

lemma Command.Unsmoothed.replaced (h : command.Unsmoothed) (hother : Replaces previous command other)
    (hkind : other.kind ≠ .smoothCubic) : other.Unsmoothed :=
  ⟨h.1.replaced hother h.2, fun hk => absurd hk hkind⟩

lemma unsmoothed_straightCubic (h : Edit.straightCubic previous command next = .replace other)
    (hcommand : command.Unsmoothed) : other.Unsmoothed := by
  refine hcommand.replaced (Lawful.straightCubic.replaces _ _ _ _ h) ?_
  rw [(kind_of_straightCubic h).2]
  decide

lemma unsmoothed_axisCubic (h : Edit.axisCubic previous command next = .replace other)
    (hcommand : command.Unsmoothed) : other.Unsmoothed := by
  refine hcommand.replaced (Lawful.axisCubic.replaces _ _ _ _ h) ?_
  rcases (kind_of_axisCubic h).2 with hk | hk
  all_goals
    rw [hk]
    decide

lemma unsmoothed_orphanSmooth (h : Edit.orphanSmooth previous command next = .replace other)
    (hcommand : command.Unsmoothed) : other.Unsmoothed := by
  refine hcommand.replaced (Lawful.orphanSmooth.replaces _ _ _ _ h) ?_
  rw [kind_of_orphanSmooth h]
  decide

lemma thrifty_contractSmooth (h : Edit.contractSmooth previous command next = .replace other)
    (hcommand : command.Thrifty) : other.Thrifty := by
  refine hcommand.replaced (Lawful.contractSmooth.replaces _ _ _ _ h) fun hk => ?_
  cases hk.symm.trans (kind_of_contractSmooth h).1

lemma thrifty_lineToAxis (h : Edit.lineToAxis previous command next = .replace other)
    (hcommand : command.Thrifty) : other.Thrifty := by
  have hother := Lawful.lineToAxis.replaces _ _ _ _ h
  rw [eq_flat_of_lineToAxis h] at hother ⊢
  obtain hflat | ⟨hline, -⟩ := kind_flat command
  · rwa [hflat]
  · exact hcommand.replaced hother fun hk => absurd (hk.symm.trans hline) (by decide)

end Thrifty

end TersePath
