import TersePath.Proofs.Path.Reread
import TersePath.Run.Registry

/-! Runs that end well. Each pass is inverted once, so that the outcome of a whole run is an equation
between the text that is read and the text that is written. -/

namespace TersePath

lemma runPasses_cons_ok {pass : Pass} {rest : List Pass} {run after : Run}
    (h : Registry.runPasses (pass :: rest) run = (after, none)) :
    ∃ mid, pass.apply run = (mid, none) ∧
      Registry.runPasses rest { mid with completed := mid.completed ++ [pass.id] } = (after, none) := by
  rw [Registry.runPasses] at h
  split at h
  · cases h
  · next mid hmid => exact ⟨mid, hmid, h⟩

lemma order_standard : Registry.standard.order = .ok Pass.standard := by
  have hsorted : Pass.standard.Pairwise (fun a b => Pass.atMost a b = true) := by
    simp [Pass.standard, Pass.atMost, Stage.number]
  have horder : Registry.standard.checkOrder [] Pass.standard = .ok () := by
    rfl
  have hsort : Registry.standard.passes.mergeSort Pass.atMost = Pass.standard :=
    List.mergeSort_of_pairwise hsorted
  rw [Registry.order, hsort, horder]
  rfl

lemma optimize_eq (text : List Char) (config : Config) (element : Option Element) :
    optimize text config element = Registry.runPasses Pass.standard
      (({ raw := text, config, element } : Run).report [.queued Pass.standard.length]) := by
  rw [optimize, Registry.run, order_standard]

/-- What only scaling changes in a run. -/
structure Run.Frame (run after : Run) : Prop where
  config : after.config = run.config
  element : after.element = run.element
  scale : after.scale = run.scale

section Passes

variable {run after : Run}

lemma readTokens_ok (h : run.readTokens = (after, none)) :
    tokenize run.config.strictNumbers (normalizeSeparators run.raw) = .ok after.tokens ∧
      run.Frame after := by
  simp only [Run.readTokens] at h
  split at h
  · next tokens htokens =>
    obtain ⟨rfl, -⟩ := Prod.mk.inj h
    exact ⟨htokens, rfl, rfl, rfl⟩
  · cases h

lemma exists_readTokens (run : Run) {tokens : List Token}
    (h : tokenize run.config.strictNumbers (normalizeSeparators run.raw) = .ok tokens) :
    ∃ after, run.readTokens = (after, none) := by
  simp only [Run.readTokens]
  split
  · exact ⟨_, rfl⟩
  · next fault hfault => cases h.symm.trans hfault

lemma readCommands_ok (h : run.readCommands = (after, none)) :
    commandsOf run.tokens = .ok after.commands ∧ run.Frame after := by
  rw [Run.readCommands] at h
  split at h
  · next commands hcommands =>
    obtain ⟨rfl, -⟩ := Prod.mk.inj h
    exact ⟨hcommands, rfl, rfl, rfl⟩
  · cases h

lemma exists_readCommands (run : Run) {commands : List Command}
    (h : commandsOf run.tokens = .ok commands) :
    ∃ after, run.readCommands = (after, none) := by
  rw [Run.readCommands, h]
  exact ⟨_, rfl⟩

lemma compensate_frame (run : Run) : run.compensate.1.commands = run.commands ∧
    run.compensate.1.config = run.config ∧ run.compensate.1.scale = run.scale ∧
    run.compensate.1.element = run.element.map fun owner => (owner.compensate run.scale).1 := by
  rw [Run.compensate]
  split
  · next h => exact ⟨rfl, rfl, rfl, by rw [h, Option.map_none]⟩
  · next h => exact ⟨rfl, rfl, rfl, by rw [h, Option.map_some]; rfl⟩

/-- What a run at a scale makes of the element of its path: only a scale of more than one changes it. -/
def ownerAfter (scale : ℕ) (element : Option Element) : Option Element :=
  if 1 < scale then element.map fun owner => (owner.compensate scale).1 else element

lemma scaleCommands_ok (h : run.scaleCommands = (after, none)) :
    applyScale after.scale run.commands = (after.commands, none) ∧ after.config = run.config ∧
      after.scale = resolveScale run.commands run.config.maxDecimalPlaces ∧
      after.element = ownerAfter after.scale run.element := by
  simp only [Run.scaleCommands] at h
  split at h
  · next hfault =>
    rw [(Prod.mk.inj h).2] at hfault
    cases hfault
  · next hfault =>
    have hnone : (applyScale (resolveScale run.commands run.config.maxDecimalPlaces)
        run.commands).2 = none := Option.not_isSome_iff_eq_none.mp hfault
    split at h
    · next hrescaled =>
      obtain ⟨hcommands, hconfig, hscale, helement⟩ := compensate_frame _
      rw [h] at hcommands hconfig hscale helement
      refine ⟨Prod.ext (hscale ▸ hcommands.symm) (hscale ▸ hnone), hconfig, hscale, ?_⟩
      rw [ownerAfter, hscale]
      exact helement.trans (if_pos (decide_eq_true_eq.mp hrescaled)).symm
    · next hrescaled =>
      obtain ⟨rfl, -⟩ := Prod.mk.inj h
      exact ⟨Prod.ext rfl hnone, rfl, rfl, (if_neg (mt decide_eq_true_eq.mpr hrescaled)).symm⟩

lemma exists_scaleCommands (run : Run)
    (hscale : resolveScale run.commands run.config.maxDecimalPlaces = 1)
    (hfault : (applyScale 1 run.commands).2 = none) : ∃ after, run.scaleCommands = (after, none) := by
  simp only [Run.scaleCommands, hscale, Run.rescaled]
  rw [Nat.cast_one, hfault]
  exact ⟨_, rfl⟩

lemma makeRelative_ok (h : run.makeRelative = (after, none)) :
    after.commands = (if run.config.convertToRelative then
      toRelative run.config.devmode run.commands else run.commands) ∧ run.Frame after := by
  rw [Run.makeRelative] at h
  split at h
  · next hrelative =>
    obtain ⟨rfl, -⟩ := Prod.mk.inj h
    exact ⟨(if_pos hrelative).symm, rfl, rfl, rfl⟩
  · next hrelative =>
    obtain ⟨rfl, -⟩ := Prod.mk.inj h
    exact ⟨(if_neg hrelative).symm, rfl, rfl, rfl⟩

lemma exists_makeRelative (run : Run) : ∃ after, run.makeRelative = (after, none) := by
  rw [Run.makeRelative]
  split
  · exact ⟨_, rfl⟩
  · exact ⟨_, rfl⟩

lemma simplifyCommands_ok (h : run.simplifyCommands = (after, none)) :
    after.commands = simplify run.commands ∧ run.Frame after := by
  obtain ⟨rfl, -⟩ := Prod.mk.inj h
  exact ⟨rfl, rfl, rfl, rfl⟩

lemma writeOutput_ok (h : run.writeOutput = (after, none)) :
    after.output = serialize run.config run.commands ∧ after.commands = markClosed run.commands ∧
      run.Frame after := by
  obtain ⟨rfl, -⟩ := Prod.mk.inj h
  exact ⟨rfl, rfl, rfl, rfl, rfl⟩

end Passes

/-- The commands that the rules are given: scaled, and relative if the settings ask for it. -/
def prepared (config : Config) (commands : List Command) : List Command :=
  let scaled := (applyScale (resolveScale commands config.maxDecimalPlaces) commands).1
  if config.convertToRelative then toRelative config.devmode scaled else scaled

structure Run.Done (run : Run) (text : List Char) (config : Config) (element : Option Element)
    (commands : List Command) : Prop where
  parse : parse config.strictNumbers text = .ok commands
  scale : run.scale = resolveScale commands config.maxDecimalPlaces
  fault : (applyScale run.scale commands).2 = none
  element : run.element = ownerAfter run.scale element
  output : run.output = serialize config (simplify (prepared config commands))
  commands : run.commands = markClosed (simplify (prepared config commands))

theorem exists_of_optimize {text : List Char} {config : Config} {element : Option Element} {run : Run}
    (h : optimize text config element = (run, none)) : ∃ commands, run.Done text config element commands := by
  rw [optimize_eq] at h
  obtain ⟨run1, h1, h⟩ := runPasses_cons_ok h
  obtain ⟨run2, h2, h⟩ := runPasses_cons_ok h
  obtain ⟨run3, h3, h⟩ := runPasses_cons_ok h
  obtain ⟨run4, h4, h⟩ := runPasses_cons_ok h
  obtain ⟨run5, h5, h⟩ := runPasses_cons_ok h
  obtain ⟨run6, h6, h⟩ := runPasses_cons_ok h
  obtain ⟨htokens, hframe1⟩ := readTokens_ok h1
  obtain ⟨hcommands, hframe2⟩ := readCommands_ok h2
  obtain ⟨hscaled, hconfig3, hscale, helement3⟩ := scaleCommands_ok h3
  obtain ⟨hrelative, hframe4⟩ := makeRelative_ok h4
  obtain ⟨hsimple, hframe5⟩ := simplifyCommands_ok h5
  obtain ⟨houtput, hclosed, hframe6⟩ := writeOutput_ok h6
  obtain ⟨rfl, -⟩ := Prod.mk.inj h
  have hc1 : run1.config = config := hframe1.config
  have hc2 : run2.config = config := hframe2.config.trans hc1
  have hc3 : run3.config = config := hconfig3.trans hc2
  have hc4 : run4.config = config := hframe4.config.trans hc3
  have hc5 : run5.config = config := hframe5.config.trans hc4
  have helement : run2.element = element := hframe2.element.trans hframe1.element
  have hscale6 : run6.scale = run3.scale := (hframe6.scale.trans hframe5.scale).trans hframe4.scale
  have helement6 : run6.element = run3.element :=
    (hframe6.element.trans hframe5.element).trans hframe4.element
  simp only [hc2] at hscale
  simp only [hc3] at hrelative
  have hprepared : run4.commands = prepared config run2.commands := by
    rw [hrelative, prepared, ← hscale, hscaled]
  refine ⟨run2.commands, bind_eq_ok.mpr ⟨run1.tokens, htokens, hcommands⟩, hscale6.trans hscale, ?_,
    ?_, ?_, ?_⟩
  · exact hscale6 ▸ congrArg Prod.snd hscaled
  · exact helement6.trans (hscale6 ▸ helement ▸ helement3)
  · rw [← hprepared, ← hsimple, ← hc5]
    exact houtput
  · rw [← hprepared, ← hsimple]
    exact hclosed

lemma exists_runPasses_cons {pass : Pass} {rest : List Pass} {run mid : Run}
    (hmid : pass.apply run = (mid, none))
    (h : ∃ after, Registry.runPasses rest { mid with completed := mid.completed ++ [pass.id] } =
      (after, none)) : ∃ after, Registry.runPasses (pass :: rest) run = (after, none) := by
  obtain ⟨after, hafter⟩ := h
  refine ⟨after, ?_⟩
  rw [Registry.runPasses, hmid]
  exact hafter

theorem exists_optimize {text : List Char} {config : Config} (element : Option Element)
    {commands : List Command} (hparse : parse config.strictNumbers text = .ok commands)
    (hscale : resolveScale commands config.maxDecimalPlaces = 1)
    (hfault : (applyScale 1 commands).2 = none) :
    ∃ run, optimize text config element = (run, none) := by
  obtain ⟨tokens, htokens, hcommands⟩ := bind_eq_ok.mp hparse
  rw [optimize_eq]
  obtain ⟨run1, h1⟩ := exists_readTokens
    (({ raw := text, config, element } : Run).report [.queued Pass.standard.length]) htokens
  obtain ⟨htokens1, hframe1⟩ := readTokens_ok h1
  refine exists_runPasses_cons h1 ?_
  obtain rfl : run1.tokens = tokens := Except.ok.inj (htokens1.symm.trans htokens)
  obtain ⟨run2, h2⟩ := exists_readCommands
    { run1 with completed := run1.completed ++ ["P01"] } hcommands
  obtain ⟨hcommands2, hframe2⟩ := readCommands_ok h2
  refine exists_runPasses_cons h2 ?_
  obtain rfl : run2.commands = commands := Except.ok.inj (hcommands2.symm.trans hcommands)
  have hconfig : run2.config = config := hframe2.config.trans hframe1.config
  obtain ⟨run3, h3⟩ := exists_scaleCommands
    { run2 with completed := run2.completed ++ ["P02"] } (hconfig ▸ hscale) hfault
  refine exists_runPasses_cons h3 ?_
  obtain ⟨run4, h4⟩ := exists_makeRelative { run3 with completed := run3.completed ++ ["P03"] }
  exact exists_runPasses_cons h4 (exists_runPasses_cons rfl (exists_runPasses_cons rfl ⟨_, rfl⟩))

end TersePath
