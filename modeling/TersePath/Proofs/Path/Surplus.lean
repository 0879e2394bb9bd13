import TersePath.Proofs.Path.Saving

namespace TersePath

section Chosen

variable {command : Command} {commands : List Command} {letter : Option Char} {closed : Bool}

lemma chosenText_cases {kept : List Char} (h : command.absoluteText = some kept) :
    (chosenText {} command = kept ∧ kept.length < (command.text false).length) ∨
      (chosenText {} command = command.text false ∧ (command.text false).length ≤ kept.length) := by
  simp only [chosenText, h, Bool.true_and, decide_eq_true_eq]
  split
  · next hshort => exact Or.inl ⟨rfl, hshort⟩
  · next hlong => exact Or.inr ⟨rfl, Nat.le_of_not_lt hlong⟩

lemma Command.Thrifty.lettered (h : command.Thrifty) : command.Lettered := by
  intro hclose
  obtain ⟨kept, hkept, hne, hsaved⟩ := h.resolve_left hclose
  obtain ⟨hchosen, hshort⟩ | ⟨hchosen, -⟩ := chosenText_cases hkept
  · rw [hchosen]
    refine ⟨hne, fun hcompacts => ?_⟩
    have hle : leastLength kept ≤ kept.length := writtenLength_le
    rcases hsaved hcompacts with htext | hless
    · rw [htext] at hshort
      exact absurd hshort (lt_irrefl _)
    · omega
  · rw [hchosen]
    refine ⟨List.cons_ne_nil _ _, fun hcompacts => ?_⟩
    rcases (compacts_char command.letter).mp hcompacts with hletter | hletter
    · exact Or.inr (congrArg Letter.kind hletter)
    · exact Or.inl (congrArg Letter.kind hletter)

lemma chosen_le_kept {kept : List Char} (hkept : command.absoluteText = some kept)
    (hsaved : Compacts kept.head? → command.text false = kept ∨ (command.text false).length < leastLength kept)
    (rest : List Command) :
    writtenLength letter closed (chosenText {} command) +
        pathLength (chosenText {}) (chosenText {} command).head? false rest ≤
      writtenLength letter closed kept + pathLength (chosenText {}) kept.head? false rest := by
  have hwritten : writtenLength letter closed (chosenText {} command) ≤ _ := writtenLength_le
  by_cases hcompacts : Compacts kept.head?
  · rcases hsaved hcompacts with htext | hless
    · have hchosen : chosenText {} command = kept := by
        obtain ⟨hchosen, -⟩ | ⟨hchosen, -⟩ := chosenText_cases hkept
        · exact hchosen
        · rw [hchosen, htext]
      rw [hchosen]
    · -- the character that is saved pays for the letter of the next command
      have hleast : leastLength kept ≤ writtenLength letter closed kept := leastLength_le
      have hle : leastLength kept ≤ kept.length := writtenLength_le
      have hchosen : chosenText {} command = command.text false := by
        obtain ⟨-, hshort⟩ | ⟨hchosen, -⟩ := chosenText_cases hkept
        · omega
        · exact hchosen
      rw [hchosen] at hwritten ⊢
      have hnext := pathLength_le_succ (chosenText {}) rest (command.text false).head? kept.head? false false
      omega
  · rw [writtenLength_of_head hcompacts]
    have hnext : pathLength (chosenText {}) (chosenText {} command).head? false rest ≤ _ :=
      pathLength_le_plain hcompacts
    have hshort : (chosenText {} command).length ≤ kept.length := by
      obtain ⟨hchosen, -⟩ | ⟨hchosen, hle⟩ := chosenText_cases hkept
      · rw [hchosen]
      · rwa [hchosen]
    omega

lemma pathLength_chosen (h : ∀ c ∈ commands, c.Thrifty) :
    pathLength (chosenText {}) letter closed commands ≤ pathLength Command.keptText letter closed commands := by
  induction commands generalizing letter closed with
  | nil => exact le_rfl
  | cons command rest ih =>
    obtain ⟨hcommand, hrest⟩ := List.forall_mem_cons.mp h
    by_cases hclose : command.kind = .close
    · rw [pathLength_close hclose, pathLength_close hclose]
      exact Nat.add_le_add_left (ih hrest) _
    · obtain ⟨kept, hkept, -, hsaved⟩ := hcommand.resolve_left hclose
      rw [pathLength_cons hclose, pathLength_cons hclose, keptText_of_eq hkept]
      exact (chosen_le_kept hkept hsaved rest).trans (Nat.add_le_add_left (ih hrest) _)

end Chosen

section Respelled

variable {command other : Command} {commands others : List Command} {letter : Option Char} {closed : Bool}

lemma Respelled.unsmoothed (h : Respelled false command other) : other.Unsmoothed := by
  cases h with
  | close hk =>
    refine ⟨Or.inl hk, fun hsmooth => ?_⟩
    cases hk.symm.trans hsmooth
  | kept hk =>
    refine ⟨Or.inr ⟨command.text false, rfl, List.cons_ne_nil _ _, fun _ => Or.inl rfl⟩, ?_⟩
    intro hsmooth hcompacts
    have hkind : command.kind = .smoothCubic := hsmooth
    rcases (compacts_char command.letter).mp hcompacts with hletter | hletter
    all_goals cases hkind.symm.trans (congrArg Letter.kind hletter)
  | moved hk cursor habsolute =>
    have hupper : ¬ Compacts (command.text false).head? := by
      intro hcompacts
      rcases (compacts_char command.letter).mp hcompacts with hletter | hletter
      all_goals cases habsolute.symm.trans (congrArg Letter.absolute hletter)
    exact ⟨Or.inr ⟨command.text false, rfl, List.cons_ne_nil _ _, fun h => absurd h hupper⟩,
      fun _ => hupper⟩

lemma pathLength_respelled (h : List.Forall₂ (Respelled false) commands others)
    (hbare : ∀ c ∈ commands, c.Bare) : pathLength Command.keptText letter closed others =
      pathLength (chosenText {}) letter closed commands := by
  induction h generalizing letter closed with
  | nil => rfl
  | @cons command other _ _ hother _ ih =>
    obtain ⟨hcommand, hrest⟩ := List.forall_mem_cons.mp hbare
    have hkind := hother.replays.kind
    by_cases hclose : command.kind = .close
    · rw [pathLength_close hclose, pathLength_close (hkind.trans hclose), ih hrest]
    · have htext : other.keptText = chosenText {} command := by
        rw [keptText_of_eq (hother.absoluteText hclose), chosenText_bare {} hcommand]
      rw [pathLength_cons hclose, pathLength_cons (hkind.symm ▸ hclose), htext, ih hrest]

end Respelled

section Rules

variable {commands : List Command} {letter : Option Char} {closed : Bool}

def reshaped (commands : List Command) : List Command :=
  Rule.linesToAxis.apply (Rule.contractSmooth.apply (Rule.orphanSmooth.apply
    (Rule.axisCubics.apply (Rule.straightCubics.apply commands))))

lemma pathLength_reshape {edit : Option Command → Command → Option Command → Edit} (hlawful : Lawful edit)
    (hmerge : ∀ previous command next other, edit previous command next ≠ .merge other)
    (hthrifty : ∀ c ∈ commands, c.Thrifty) :
    pathLength Command.keptText letter closed (sweep edit none commands) ≤
      pathLength Command.keptText letter closed commands := by
  refine pathLength_sweep hmerge (fun _ _ _ _ hcase => ?_) fun c hc => (hthrifty c hc).keptText_ne_nil
  have hreplaces := hlawful.replaces _ _ _ _ hcase
  exact ⟨hreplaces.close_iff, hreplaces.keptText⟩

lemma forall_sweep_apart {good : Command → Prop} {edit : Option Command → Command → Option Command → Edit}
    (hmerge : ∀ previous command next other, edit previous command next ≠ .merge other)
    (hreplace : ∀ {previous command next other}, edit previous command next = .replace other →
      good command → good other) (hall : ∀ c ∈ commands, good c) :
    ∀ c ∈ sweep edit none commands, good c :=
  forall_sweep (fun _ _ _ _ => hreplace) (fun _ _ _ _ hcase => absurd hcase (hmerge _ _ _ _)) (by simp) hall

theorem reshaped_thrifty (letter : Option Char) (closed : Bool) (h : ∀ c ∈ commands, c.Unsmoothed) :
    (∀ c ∈ reshaped commands, c.Thrifty) ∧
    pathLength Command.keptText letter closed (reshaped commands) ≤
      pathLength Command.keptText letter closed commands := by
  have h1 := forall_sweep_apart not_merge_straightCubic unsmoothed_straightCubic h
  have h2 := forall_sweep_apart not_merge_axisCubic unsmoothed_axisCubic h1
  have h3 := forall_sweep_apart not_merge_orphanSmooth unsmoothed_orphanSmooth h2
  have h4 := forall_sweep_apart not_merge_contractSmooth thrifty_contractSmooth fun c hc => (h3 c hc).1
  have h5 := forall_sweep_apart not_merge_lineToAxis thrifty_lineToAxis h4
  refine ⟨h5, ?_⟩
  calc pathLength Command.keptText letter closed (reshaped commands)
      ≤ _ := pathLength_reshape .lineToAxis not_merge_lineToAxis h4
    _ ≤ _ := pathLength_reshape .contractSmooth not_merge_contractSmooth fun c hc => (h3 c hc).1
    _ ≤ _ := pathLength_reshape .orphanSmooth not_merge_orphanSmooth fun c hc => (h2 c hc).1
    _ ≤ _ := pathLength_reshape .axisCubic not_merge_axisCubic fun c hc => (h1 c hc).1
    _ ≤ _ := pathLength_reshape .straightCubic not_merge_straightCubic fun c hc => (h c hc).1

def trimmed (commands : List Command) : List Command :=
  trimMoves (sweep Edit.closeAfterMove none (Rule.dropZeroAxis.apply (Rule.mergeAxisRuns.apply commands)))

/-- What the merges of a path that is simplified write more than the spellings that are lost. -/
def surplus (commands : List Command) : ℕ :=
  mergeSurplus Edit.mergeAxis none (reshaped commands) +
    mergeSurplus Edit.mergeMoves none (trimmed (reshaped commands))

lemma lettered_sweep {edit : Option Command → Command → Option Command → Edit} (hlawful : Lawful edit)
    (hpresent : ∀ previous command next other, edit previous command next ≠ .replace other)
    (h : ∀ c ∈ commands, c.Lettered) : ∀ c ∈ sweep edit none commands, c.Lettered := by
  refine forall_sweep (fun _ _ _ _ hcase => absurd hcase (hpresent _ _ _ _))
    (fun _ _ _ _ hcase _ _ => ?_) (by simp) h
  obtain ⟨before, -, hjoins⟩ := hlawful.joins _ _ _ _ hcase
  exact lettered_of_bare hjoins.bare

lemma pathLength_dropped {edit : Option Command → Command → Option Command → Edit}
    (hmerge : ∀ previous command next other, edit previous command next ≠ .merge other)
    (hpresent : ∀ previous command next other, edit previous command next ≠ .replace other)
    (h : ∀ c ∈ commands, c.Lettered) : pathLength (chosenText {}) letter closed (sweep edit none commands) ≤
      pathLength (chosenText {}) letter closed commands :=
  pathLength_sweep hmerge (fun _ _ _ _ hcase => absurd hcase (hpresent _ _ _ _))
    fun c hc hclose => (h c hc hclose).1

theorem pathLength_merged (h : ∀ c ∈ commands, c.Lettered) :
    pathLength (chosenText {}) letter closed (sweep Edit.mergeMoves none (trimmed commands)) ≤
      pathLength (chosenText {}) letter closed commands +
        (mergeSurplus Edit.mergeAxis none commands + mergeSurplus Edit.mergeMoves none (trimmed commands)) := by
  have hmerged := lettered_sweep .mergeAxis shortens_mergeAxis.present h
  have hdropped := lettered_sweep .zeroAxis not_replace_zeroAxis hmerged
  have hclosed := lettered_sweep .closeAfterMove shortens_closeAfterMove.present hdropped
  have htrimmed : ∀ c ∈ trimmed commands, c.Lettered := fun c hc => hclosed c (mem_of_mem_trimMoves hc)
  have h1 : pathLength (chosenText {}) letter closed (Rule.mergeAxisRuns.apply commands) ≤ _ :=
    pathLength_sweep_merging .mergeAxis shortens_mergeAxis.present (by simp) h
  have h2 : pathLength (chosenText {}) letter closed (Rule.dropZeroAxis.apply _) ≤ _ :=
    pathLength_dropped not_merge_zeroAxis not_replace_zeroAxis hmerged
  have h3 : pathLength (chosenText {}) letter closed (sweep Edit.closeAfterMove none _) ≤ _ :=
    pathLength_dropped not_merge_closeAfterMove shortens_closeAfterMove.present hdropped
  have h4 : pathLength (chosenText {}) letter closed (trimmed commands) ≤ _ :=
    pathLength_trimMoves fun c hc hclose => (hclosed c hc hclose).1
  have h5 : pathLength (chosenText {}) letter closed (sweep Edit.mergeMoves none (trimmed commands)) ≤ _ :=
    pathLength_sweep_merging .mergeMoves shortens_mergeMoves.present (by simp) htrimmed
  have hless := h4.trans (h3.trans (h2.trans h1))
  calc pathLength (chosenText {}) letter closed (sweep Edit.mergeMoves none (trimmed commands))
      ≤ pathLength (chosenText {}) letter closed (trimmed commands) +
        mergeSurplus Edit.mergeMoves none (trimmed commands) := h5
    _ ≤ pathLength (chosenText {}) letter closed commands + mergeSurplus Edit.mergeAxis none commands +
        mergeSurplus Edit.mergeMoves none (trimmed commands) := Nat.add_le_add_right hless _
    _ = _ := Nat.add_assoc _ _ _

lemma maintained_open : Maintained fun command => command.closesSubpath = false where
  replaces previous command other h hcommand := by
    cases h with
    | flat =>
      obtain hflat | ⟨x, y, -, -, ⟨-, hflat⟩ | ⟨-, -, hflat⟩⟩ := flat_cases command
      all_goals
        rw [hflat]
        exact hcommand
    | _ => exact hcommand
  joins before command other h _ _ := h.bare.1

end Rules

/-- A path that is made relative and simplified is written no longer than it was, apart from its surplus. -/
theorem length_serialize_simplify {commands : List Command} (hhead : BeginsWithMove commands)
    (hbare : ∀ c ∈ commands, c.Bare) :
    (serialize {} (simplify (toRelative false commands))).length ≤
      (serialize {} commands).length + surplus (toRelative false commands) := by
  have hrespelled := respelled_toRelative false commands
  have hunsmoothed : ∀ c ∈ toRelative false commands, c.Unsmoothed := by
    intro c hc
    obtain ⟨command, -, hcommand⟩ := exists_of_forall₂ hrespelled c hc
    exact hcommand.unsmoothed
  have hopen : ∀ c ∈ simplify (toRelative false commands), c.closesSubpath = false := by
    refine maintained_open.forall_simplify fun c hc => ?_
    obtain ⟨command, hcommand, hc⟩ := exists_of_forall₂ hrespelled c hc
    exact hc.closesSubpath.trans (hbare command hcommand).1
  have hbegins : BeginsWithMove (simplify (toRelative false commands)) :=
    beginsWithMove_simplify (beginsWithMove_toRelative hhead)
  obtain ⟨hthrifty, hreshaped⟩ := reshaped_thrifty none false hunsmoothed
  rw [length_serialize hbegins hopen, length_serialize hhead fun c hc => (hbare c hc).1]
  calc pathLength (chosenText {}) none false (simplify (toRelative false commands))
      ≤ pathLength (chosenText {}) none false (reshaped (toRelative false commands)) +
        surplus (toRelative false commands) := pathLength_merged fun c hc => (hthrifty c hc).lettered
    _ ≤ pathLength Command.keptText none false (reshaped (toRelative false commands)) +
        surplus (toRelative false commands) := Nat.add_le_add_right (pathLength_chosen hthrifty) _
    _ ≤ pathLength Command.keptText none false (toRelative false commands) +
        surplus (toRelative false commands) := Nat.add_le_add_right hreshaped _
    _ = pathLength (chosenText {}) none false commands + surplus (toRelative false commands) := by
      rw [pathLength_respelled hrespelled hbare]

end TersePath
