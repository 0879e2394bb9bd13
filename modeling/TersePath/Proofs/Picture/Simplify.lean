import TersePath.Proofs.Picture.Straight

namespace TersePath

open Picture

/-- What a list of commands may become: the same is seen, and kept spellings stay true. -/
structure Redraws (commands others : List Command) : Prop where
  view : Hand.view {} others = Hand.view {} commands
  proper : ∀ c ∈ others, c.Proper
  keeps : ∀ spaced, KeepsAll spaced {} commands → KeepsAll spaced {} others

lemma Redraws.trans {xs ys zs : List Command} (h : Redraws xs ys) (h' : Redraws ys zs) :
    Redraws xs zs :=
  ⟨h'.view.trans h.view, h'.proper, fun spaced hkeeps => h'.keeps spaced (h.keeps spaced hkeeps)⟩

lemma redraws_sweep {holds : Option Command → Command → Option Command → Prop}
    {edit : Option Command → Command → Option Command → Edit} (hsound : EditSound holds edit)
    {commands : List Command} (hproper : ∀ c ∈ commands, c.Proper)
    (hholds : SweepAll holds edit none commands) : Redraws commands (sweep edit none commands) := by
  obtain ⟨hview, hp, hkeeps⟩ := view_sweep hsound {} none commands (fun _ => rfl) (by simp) hproper hholds
  exact ⟨hview, hp, hkeeps⟩

lemma sweepAll_true (edit : Option Command → Command → Option Command → Edit)
    (previous : Option Command) (commands : List Command) :
    SweepAll (fun _ _ _ => True) edit previous commands := by
  induction commands generalizing previous with
  | nil => trivial
  | cons command rest ih => exact ⟨trivial, ih _⟩

lemma Rule.redraws_apply (rule : Rule) {commands : List Command} (hproper : ∀ c ∈ commands, c.Proper)
    (hexact : rule.Exact commands) : Redraws commands (rule.apply commands) := by
  cases rule with
  | straightCubics => exact redraws_sweep sound_straightCubic hproper hexact
  | axisCubics => exact redraws_sweep sound_axisCubic hproper (sweepAll_true _ _ _)
  | orphanSmooth => exact redraws_sweep sound_orphanSmooth hproper (sweepAll_true _ _ _)
  | contractSmooth => exact redraws_sweep sound_contractSmooth hproper (sweepAll_true _ _ _)
  | linesToAxis => exact redraws_sweep sound_lineToAxis hproper (sweepAll_true _ _ _)
  | mergeAxisRuns => exact redraws_sweep sound_mergeAxis hproper hexact
  | dropZeroAxis => exact redraws_sweep sound_zeroAxis hproper (sweepAll_true _ _ _)
  | cleanMoves =>
    have hclose := redraws_sweep sound_closeAfterMove hproper (sweepAll_true _ _ _)
    obtain ⟨hview, hmem, hkeeps⟩ := view_trimMoves {} _ hclose.proper
    have htrim : Redraws _ _ := ⟨hview, fun c hc => hclose.proper c (hmem c hc), hkeeps⟩
    exact hclose.trans (htrim.trans (redraws_sweep sound_mergeMoves htrim.proper hexact))

lemma redraws_foldl_apply (rules : List Rule) {commands : List Command}
    (hproper : ∀ c ∈ commands, c.Proper) (hexact : Rule.AllExact rules commands) :
    Redraws commands (rules.foldl (fun commands rule => rule.apply commands) commands) := by
  induction rules generalizing commands with
  | nil => exact ⟨rfl, hproper, fun _ hkeeps => hkeeps⟩
  | cons rule rest ih =>
    have hrule := rule.redraws_apply hproper hexact.1
    exact hrule.trans (ih hrule.proper hexact.2)

namespace Example

def path : List Command :=
  let n := Binary64.ofInt
  [ { letter := ⟨.move, true⟩, operands := [n 3, n 4] },
    { letter := ⟨.cubic, false⟩, operands := [n 0, n 0, n 1, n 2, n 2, n 4] },
    { letter := ⟨.smoothCubic, false⟩, operands := [n 5, n 1, n 6, n 0] },
    { letter := ⟨.line, false⟩, operands := [n 7, n 0] },
    { letter := ⟨.horizontal, false⟩, operands := [n 2] },
    { letter := ⟨.close, false⟩, operands := [] },
    { letter := ⟨.move, false⟩, operands := [n 1, n 1] },
    { letter := ⟨.move, false⟩, operands := [n (-2), n 1] },
    { letter := ⟨.quadratic, true⟩, operands := [n 1, n 1, n 9, n 9] },
    { letter := ⟨.smoothQuadratic, false⟩, operands := [n 3, n 0] } ]

end Example

end TersePath
