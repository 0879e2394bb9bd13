import TersePath.Proofs.Path.Abreast
import TersePath.Proofs.Path.Saving
import TersePath.Proofs.Picture.Printed

/-! A path that is printed again. It stands for the path that was printed, and each of its commands keeps
the spelling that was printed. The rules do not change that, and what they leave is printed as before: a
command that is not yet the one it stands for is longer than its spelling. -/

namespace TersePath

open Binary64 Edit

/-- A command that was read from what is printed for another one. -/
structure Reprints (config : Config) (early slopes : Prop) (previous : Option Command)
    (command other : Command) : Prop where
  variant : Variant early slopes previous command other
  openEnd : other.closesSubpath = command.closesSubpath
  text : command.kind ≠ .close → other.absoluteText = some (chosenText config command)

section Sweep

variable {config : Config} {early slopes early' slopes' : Prop} {previous previous' : Option Command}
  {command other third : Command} {commands others : List Command}

lemma closesSubpath_flat (command : Command) : command.flat.closesSubpath = command.closesSubpath := by
  obtain h | ⟨x, y, -, -, ⟨-, h⟩ | ⟨-, -, h⟩⟩ := flat_cases command
  · rw [h]
  · rw [h]
    rfl
  · rw [h]
    rfl

lemma Replaces.closesSubpath (h : Replaces previous command other) :
    other.closesSubpath = command.closesSubpath := by
  cases h with
  | flat => exact closesSubpath_flat command
  | _ => rfl

lemma Reprints.replaces (h : Reprints config early slopes previous command other)
    (hreplaces : Replaces previous' other third) (hvariant : Variant early' slopes' previous command third) :
    Reprints config early' slopes' previous command third :=
  ⟨hvariant, hreplaces.closesSubpath.trans h.openEnd,
    fun hopen => hreplaces.absoluteText.trans (h.text hopen)⟩

lemma Behind.mono (h : Behind early' slopes' previous previous') (hearly : early' → early)
    (hslopes : slopes' → slopes) : Behind early slopes previous previous' := by
  cases h with
  | none => exact .none
  | some h =>
    obtain ⟨before, h⟩ := h
    exact .some ⟨before, h.mono hearly hslopes⟩

lemma Abreast.ahead (h : Abreast (Reprints config early slopes) previous commands others) :
    Option.Rel (Variant early slopes previous) commands.head? others.head? :=
  (h.imp fun _ _ _ hspells => hspells.variant).head

lemma Abreast.facing (h : Abreast (Reprints config early slopes) previous (command :: commands) (other :: others))
    (hspent : Windows Spent previous (command :: commands)) (hbehind : Behind early slopes previous previous') :
    Facing early slopes previous command commands.head? previous' other others.head? := by
  cases h with
  | cons head tail => exact ⟨hspent.1, hbehind, head.variant, tail.ahead⟩

theorem Abreast.sweep {edit : Option Command → Command → Option Command → Edit} (hlawful : Lawful edit)
    (hearly : early' → early) (hslopes : slopes' → slopes)
    (hstep : ∀ {previous command next previous' other next'},
      Facing early slopes previous command next previous' other next' →
      Leads early' slopes' previous command other (edit previous' other next'))
    (hspent : Windows Spent previous commands) (hbehind : Behind early' slopes' previous previous')
    (h : Abreast (Reprints config early slopes) previous commands others) :
    ∃ thirds, TersePath.sweep edit previous' others = previous'.toList ++ thirds ∧
      Abreast (Reprints config early' slopes') previous commands thirds := by
  induction h generalizing previous' with
  | nil previous => exact ⟨[], by rw [TersePath.sweep, List.append_nil], .nil previous⟩
  | @cons previous command other commands others head tail ih =>
    have hfacing := (Abreast.cons head tail).facing hspent (hbehind.mono hearly hslopes)
    rcases hstep hfacing with ⟨hkeep, hvariant⟩ | ⟨third, hreplace, hvariant⟩
    · obtain ⟨thirds, hsweep, hthirds⟩ := ih hspent.2 (.some ⟨previous, hvariant⟩)
      refine ⟨other :: thirds, ?_, .cons ⟨hvariant, head.openEnd, head.text⟩ hthirds⟩
      rw [TersePath.sweep, hkeep]
      exact congrArg (previous'.toList ++ ·) hsweep
    · obtain ⟨thirds, hsweep, hthirds⟩ := ih hspent.2 (.some ⟨previous, hvariant⟩)
      have hreplaces := hlawful.replaces _ _ _ _ hreplace
      refine ⟨third :: thirds, ?_, .cons (head.replaces hreplaces hvariant) hthirds⟩
      rw [TersePath.sweep, hreplace]
      exact congrArg (previous'.toList ++ ·) hsweep

lemma Abreast.sweep_all {edit : Option Command → Command → Option Command → Edit} (hlawful : Lawful edit)
    (hearly : early' → early) (hslopes : slopes' → slopes)
    (hstep : ∀ {previous command next previous' other next'},
      Facing early slopes previous command next previous' other next' →
      Leads early' slopes' previous command other (edit previous' other next'))
    (hspent : Windows Spent none commands) (h : Abreast (Reprints config early slopes) none commands others) :
    Abreast (Reprints config early' slopes') none commands (TersePath.sweep edit none others) := by
  obtain ⟨thirds, hsweep, hthirds⟩ := h.sweep hlawful hearly hslopes hstep hspent .none
  have hall : TersePath.sweep edit none others = thirds := hsweep
  exact hall.symm ▸ hthirds

lemma Abreast.windows_mergeAxis (h : Abreast (Reprints config False False) previous commands others)
    (hspent : Windows Spent previous commands) (hbehind : Behind False False previous previous')
    (hcontracted : Windows (Still contractSmooth) previous' others) :
    Windows (Still mergeAxis) previous' others := by
  induction h generalizing previous' with
  | nil => trivial
  | @cons previous command other commands others head tail ih =>
    have hfacing := (Abreast.cons head tail).facing hspent hbehind
    refine ⟨hfacing.mergeAxis fun u hu => ?_, ih hspent.2 (.some ⟨previous, head.variant⟩) hcontracted.2⟩
    obtain ⟨rest, rfl⟩ := List.head?_eq_some_iff.mp hu
    exact ⟨_, hcontracted.2.1⟩

lemma Abreast.fresh (h : Abreast (Reprints config False False) none commands others)
    (hspent : Windows Spent none commands) : Fresh others := by
  suffices hall : ∀ {previous previous' commands others},
      Abreast (Reprints config False False) previous commands others → Windows Spent previous commands →
      Behind False False previous previous' → Windows (fun _ command next => command.kind = .move →
        ∃ d ∈ next, d.isBreak = false) previous' others from hall h hspent .none
  intro previous previous' commands others h hspent hbehind
  induction h generalizing previous' with
  | nil => trivial
  | @cons previous command other commands others head tail ih =>
    have hfacing := (Abreast.cons head tail).facing hspent hbehind
    exact ⟨hfacing.fresh, ih hspent.2 (.some ⟨previous, head.variant⟩)⟩

/-- The rules leave a path that stands for a finished one as one that still does. -/
theorem Abreast.simplify (h : Abreast (Reprints config True True) none commands others)
    (hspent : Windows Spent none commands) :
    Abreast (Reprints config False False) none commands (simplify others) := by
  have hstraight := h.sweep_all .straightCubic id id Facing.straightCubic hspent
  have haxis := hstraight.sweep_all .axisCubic id id Facing.axisCubic hspent
  have horphan := haxis.sweep_all .orphanSmooth (fun hfalse => hfalse.elim) id Facing.orphanSmooth hspent
  have hcontract := horphan.sweep_all .contractSmooth id id Facing.contractSmooth hspent
  have hflat := hcontract.sweep_all .lineToAxis id (fun hfalse => hfalse.elim) Facing.lineToAxis hspent
  generalize hlines : TersePath.sweep lineToAxis none (TersePath.sweep contractSmooth none
    (TersePath.sweep orphanSmooth none (TersePath.sweep axisCubic none
      (TersePath.sweep straightCubic none others)))) = lines at hflat
  have hcontracted : Windows (Still contractSmooth) none lines := by
    rw [← hlines, sweep_lineToAxis]
    exact windows_contractSmooth_flat (windows_contractSmooth _)
  -- what is left for the last rules is as far merged and cleaned up as the finished path
  have hmerge : TersePath.sweep mergeAxis none lines = lines :=
    sweep_of_still (hflat.windows_mergeAxis hspent .none hcontracted)
  have hsimple : TersePath.simplify others = lines := by
    rw [simplify_eq, hlines, hmerge, cleanMoves_of_fresh (hflat.fresh hspent)]
  rw [hsimple]
  exact hflat

end Sweep

section Text

variable {config : Config} {early slopes : Prop} {previous : Option Command} {command other : Command}

lemma length_chosenText_le (config : Config) (command : Command) :
    (chosenText config command).length ≤ (command.text config.devmode).length := by
  obtain htext | ⟨kept, -, htext, -, hlt⟩ := chosenText_present_or_kept config command
  · rw [htext]
  · rw [htext]
    exact hlt.le

lemma length_flat_reshape (spaced : Bool) (command : Command) (a b : Binary64) :
    ((command.reshape .line [a, b]).flat.text spaced).length ≤
      (operandsText spaced [a, b]).length + 1 := by
  rw [length_text, flat_reshape]
  split
  · exact Nat.add_le_add_right (Nat.le_of_succ_le (length_operandsText_pair spaced a b)) 1
  · split
    · exact Nat.add_le_add_right (Nat.le_of_succ_le (length_operandsText_cons spaced a [b])) 1
    · exact le_rfl

lemma length_curve (spaced : Bool) {c : Cubic} (hc : other.curve? = some c) :
    (operandsText spaced [c.x, c.y]).length + 1 < (other.text spaced).length := by
  have hy2 := length_operandsText_cons spaced c.y2 [c.x, c.y]
  have hx2 := length_operandsText_cons spaced c.x2 [c.y2, c.x, c.y]
  rw [length_text]
  rcases curve_cases hc with ⟨-, ho⟩ | ⟨-, ho, -⟩
  · have hy1 := length_operandsText_cons spaced c.y1 [c.x2, c.y2, c.x, c.y]
    have hx1 := length_operandsText_cons spaced c.x1 [c.y1, c.x2, c.y2, c.x, c.y]
    rw [ho, Cubic.operands]
    omega
  · rw [ho]
    omega

lemma Variant.text (h : Variant False False previous command other) (hopen : command.kind ≠ .close)
    (spaced : Bool) : other.text spaced = command.text spaced ∨
      (command.text spaced).length < (other.text spaced).length := by
  cases h with
  | level hakin => exact Or.inl (hakin.text hopen spaced)
  | slanted hslopes => exact hslopes.elim
  | curve c hc _ hakin =>
    right
    rw [← hakin.text hopen spaced]
    exact (length_flat_reshape spaced other c.x c.y).trans_lt (length_curve spaced hc)
  | spelled x1 y1 rest _ ho _ _ hakin =>
    right
    have hy := length_operandsText_cons spaced y1 rest
    have hx := length_operandsText_cons spaced x1 (y1 :: rest)
    rw [← hakin.text hopen spaced, length_text, length_text, ho]
    change (operandsText spaced rest).length + 1 < _
    omega
  | shortened hearly => exact hearly.elim

/-- After the rules, a command is printed as it was. -/
theorem Reprints.chosenText_eq (h : Reprints config False False previous command other)
    (hkeep : config.keepSmallerCommand = true) (hopen : command.kind ≠ .close) :
    chosenText config other = chosenText config command := by
  have hle := length_chosenText_le config command
  rw [chosenText, h.text hopen, hkeep]
  dsimp only
  rcases h.variant.text hopen config.devmode with htext | hlt
  · rw [htext]
    obtain hpresent | ⟨kept, -, hchosen, -, hshort⟩ := chosenText_present_or_kept config command
    · rw [hpresent]
      simp
    · rw [hchosen]
      simp [hshort]
  · simp [hle.trans_lt hlt]

lemma Variant.close_iff (h : Variant early slopes previous command other) :
    other.kind = .close ↔ command.kind = .close := by
  have hcubic : ∀ {c : Command}, c.kind.isCubic → c.kind ≠ .close := by
    intro c hc hk
    rw [hk] at hc
    cases hc
  have hline : ∀ {c : Command}, isRelativeLine c → c.kind ≠ .close := by
    intro c hc hk
    rcases kind_of_isRelativeLine hc with hk' | hk' | hk' <;> cases hk.symm.trans hk'
  cases h with
  | level hakin => rw [hakin.kind]
  | slanted _ hslanted hakin =>
    exact iff_of_false (hline (isRelativeLine_of_line hslanted)) (hline (hakin.isRelativeLine.symm.trans
      ((isRelativeLine_flat other).trans (isRelativeLine_of_line hslanted))))
  | curve c hc _ hakin =>
    exact iff_of_false (hcubic (isCubic_of_curve hc))
      (hline (hakin.isRelativeLine.symm.trans (isRelativeLine_reshape other _)))
  | spelled x1 y1 rest hk _ _ _ hakin =>
    exact iff_of_false (hcubic (by rw [kind_of_isRelative hk]; rfl)) (hcubic (by rw [← hakin.kind]; rfl))
  | shortened _ hk hakin =>
    exact iff_of_false (hcubic (by rw [kind_of_isRelative hk]; rfl)) (hcubic (by rw [← hakin.kind]; rfl))

lemma Abreast.prints {commands others : List Command} (hkeep : config.keepSmallerCommand = true)
    (h : Abreast (Reprints config False False) previous commands others) :
    List.Forall₂ (Picture.Prints config) others commands := by
  induction h with
  | nil => exact .nil
  | cons head _ ih =>
    exact .cons ⟨head.chosenText_eq hkeep, head.openEnd, head.variant.close_iff⟩ ih

lemma foldCloses_singleCloses (commands : List Command) :
    foldCloses (singleCloses commands) = foldCloses commands := by
  induction commands with
  | nil => rfl
  | cons command rest ih =>
    rw [singleCloses]
    split
    · next hboth =>
      rw [ih, foldCloses_close (beq_iff_eq.mp (Bool.and_eq_true_iff.mp hboth).1)]
    · by_cases hclose : command.kind = .close
      · rw [foldCloses_close hclose, foldCloses_close hclose, ih]
      · rw [foldCloses_cons hclose, foldCloses_cons hclose, ih, Picture.head_singleCloses]

end Text

end TersePath
