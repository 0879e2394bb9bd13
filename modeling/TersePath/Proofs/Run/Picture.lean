import TersePath.Proofs.Path.Parse
import TersePath.Proofs.Picture.Printed
import TersePath.Proofs.Picture.Relative
import TersePath.Proofs.Picture.Simplify
import TersePath.Proofs.Run.Outcome

/-! What a whole run draws. The rules keep the picture, but a kept spelling may be printed of a command
that they have turned into a line; a smooth cubic after it then finds a control point to reflect. -/

namespace TersePath

open Picture Binary64

structure Prepared (config : Config) (commands : List Command) : Prop where
  head : BeginsWithMove (prepared config commands)
  proper : ∀ c ∈ prepared config commands, c.Proper
  figures : figures value {} (prepared config commands) = figures value {} commands
  keeps : KeepsAll config.devmode {} (prepared config commands)

lemma keepsAll_of_bare {spaced : Bool} {hand : Hand} {commands : List Command}
    (h : ∀ c ∈ commands, c.Bare) : KeepsAll spaced hand commands := by
  induction commands generalizing hand with
  | nil => trivial
  | cons command rest ih =>
    obtain ⟨hcommand, hrest⟩ := List.forall_mem_cons.mp h
    exact ⟨keeps_of_bare hcommand, ih hrest⟩

lemma bare_of_same {commands scaled : List Command}
    (h : List.Forall₂ (fun c s => s = { c with operands := s.operands }) commands scaled)
    (hbare : ∀ c ∈ commands, c.Bare) : ∀ s ∈ scaled, s.Bare := by
  induction h with
  | nil => simp
  | cons head _ ih =>
    obtain ⟨hcommand, hrest⟩ := List.forall_mem_cons.mp hbare
    refine List.forall_mem_cons.mpr ⟨?_, ih hrest⟩
    rw [head]
    exact hcommand

lemma beginsWithMove_of_same {commands scaled : List Command}
    (h : List.Forall₂ (fun c s => s = { c with operands := s.operands }) commands scaled)
    (hhead : BeginsWithMove commands) : BeginsWithMove scaled := by
  cases h with
  | nil => exact hhead
  | @cons command s _ _ head _ =>
    refine beginsWithMove_cons ?_ _
    rw [head]
    exact hhead command rfl

/-- Before the rules come, a path of small integers is drawn as it was read. -/
theorem prepared_of_integer {config : Config} {commands : List Command}
    (hhead : BeginsWithMove commands) (hproper : ∀ c ∈ commands, c.Proper)
    (hbare : ∀ c ∈ commands, c.Bare) (hinteger : ∀ c ∈ commands, c.Integer)
    (hnear : ∀ f ∈ figures value {} commands, ∀ p ∈ f.points, Near p) : Prepared config commands := by
  obtain ⟨scaled, hscaled, hsame, hfigures, hfinite⟩ := applyScale_of_integer hproper hinteger hnear
  obtain ⟨-, -, hintegral⟩ := figures_integral hproper hinteger integral_origin
  have hscaledBare := bare_of_same hsame hbare
  have hscaledHead := beginsWithMove_of_same hsame hhead
  cases hrelative : config.convertToRelative with
  | false =>
    have hprepared : prepared config commands = scaled := by
      rw [prepared, resolveScale_of_integer hinteger, Nat.cast_one, hscaled, hrelative]
      rfl
    refine ⟨?_, ?_, ?_, ?_⟩
    · rwa [hprepared]
    · rwa [hprepared]
    · rwa [hprepared]
    · rw [hprepared]
      exact keepsAll_of_bare hscaledBare
  | true =>
    have hprepared : prepared config commands = toRelative config.devmode scaled := by
      rw [prepared, resolveScale_of_integer hinteger, Nat.cast_one, hscaled, hrelative]
      rfl
    have hrepeats : Repeats config.devmode {} scaled (toRelative config.devmode scaled) := by
      refine repeats_toRelative hfinite hscaledBare fun f hf p hp => ?_
      rw [hfigures] at hf
      exact onGrid_of_integral (hintegral f hf p hp) (hnear f hf p hp)
    refine ⟨?_, ?_, ?_, ?_⟩
    · rw [hprepared]
      exact beginsWithMove_toRelative hscaledHead
    · rw [hprepared]
      exact hrepeats.proper
    · rw [hprepared]
      exact hrepeats.figures.trans hfigures
    · rw [hprepared]
      exact hrepeats.keeps

lemma exists_written {text : List Char} {config : Config} {element : Option Element} {run : Run}
    {commands : List Command} (hrun : optimize text config element = (run, none))
    (hread : readPath text = .ok commands)
    (hfinite : ∀ c ∈ commands, ∀ x ∈ c.operands, x.isFinite = true)
    (hinteger : ∀ c ∈ commands, c.Integer)
    (hnear : ∀ f ∈ figures value {} commands, ∀ p ∈ f.points, Near p)
    (hexact : Rule.AllExact Rule.all (prepared config commands)) :
    ∃ printed, readPath run.output = .ok printed ∧
      RespellsAll {} printed (singleCloses (simplify (prepared config commands))) ∧
      (config.keepSmallerCommand = false → figures value {} printed =
        figures value {} (singleCloses (simplify (prepared config commands)))) ∧
      picture (singleCloses (simplify (prepared config commands))) = picture commands ∧
      run.commands = markClosed (simplify (prepared config commands)) := by
  obtain ⟨others, hdone⟩ := exists_of_optimize hrun
  have hparse := hdone.parse
  obtain rfl : others = commands := Except.ok.inj ((readPath_of_parse hparse).symm.trans hread)
  obtain ⟨hhead, hcommands⟩ := read_of_parse hparse
  have hprepared : Prepared config others := prepared_of_integer hhead
    (fun c hc => ⟨(hcommands c hc).1, hfinite c hc⟩) (fun c hc => (hcommands c hc).2) hinteger hnear
  have hredraws := redraws_foldl_apply Rule.all hprepared.proper hexact
  obtain ⟨printed, hprinted, hrespells, hpresent⟩ := exists_respelling config
    (beginsWithMove_simplify hprepared.head) hredraws.proper (hredraws.keeps _ hprepared.keeps) false
  refine ⟨printed, ?_, hrespells, hpresent, ?_, hdone.commands⟩
  · rw [hdone.output]
    exact hprinted
  · rw [picture, picture, view_singleCloses, simplify, hredraws.view, Hand.view_congr hprepared.figures]

/-- The text that a run writes draws the path that it has read, exactly when each smooth cubic in it
shows the same as the command that it is printed for. -/
theorem picture_optimize_iff {text : List Char} {config : Config} {element : Option Element} {run : Run}
    {commands : List Command} (hrun : optimize text config element = (run, none))
    (hread : readPath text = .ok commands)
    (hfinite : ∀ c ∈ commands, ∀ x ∈ c.operands, x.isFinite = true)
    (hinteger : ∀ c ∈ commands, c.Integer)
    (hnear : ∀ f ∈ figures value {} commands, ∀ p ∈ f.points, Near p)
    (hexact : Rule.AllExact Rule.all (prepared config commands)) :
    ∃ printed, readPath run.output = .ok printed ∧
      printed.length = (singleCloses run.commands).length ∧
      (picture printed = picture commands ↔ ∀ (i : ℕ) (command : Command),
        printed[i]? = some command → command.kind = .smoothCubic →
        (Hand.sights {} printed)[i]? = (Hand.sights {} (singleCloses run.commands))[i]?) := by
  obtain ⟨printed, hprinted, hrespells, -, hpicture, hclosed⟩ :=
    exists_written hrun hread hfinite hinteger hnear hexact
  have hmarked : List.Forall₂ Alike (singleCloses (simplify (prepared config commands)))
      (singleCloses run.commands) := by
    rw [hclosed]
    exact forall₂_singleCloses (alike_markClosed _) fun c d h => by rw [h.kind]
  refine ⟨printed, hprinted, ?_, ?_⟩
  · rw [hrespells.length, hmarked.length_eq]
  · rw [← hpicture, Hand.sights_congr (figures_of_alike hmarked)]
    exact hrespells.picture_iff (Beside.refl {})

namespace Example

/-- A smooth cubic after a move: the rules spell it out, and it is printed as it was. -/
def orphan : List Char := "M0 0S0 5 9 0".toList

def orphanCommands : List Command :=
  let n := Binary64.ofInt
  [ { letter := ⟨.move, true⟩, operands := [n 0, n 0] },
    { letter := ⟨.smoothCubic, true⟩, operands := [n 0, n 5, n 9, n 0] } ]

/-- A smooth cubic along its chord, and a cubic after it that starts at the pen. -/
def chord : List Char := "M1000 1000S9 9 0 0C0 0 5 9 10 0".toList

def chordCommands : List Command :=
  let n := Binary64.ofInt
  [ { letter := ⟨.move, true⟩, operands := [n 1000, n 1000] },
    { letter := ⟨.smoothCubic, true⟩, operands := [n 9, n 9, n 0, n 0] },
    { letter := ⟨.cubic, true⟩, operands := [n 0, n 0, n 5, n 9, n 10, n 0] } ]

def chordPrinted : List Command :=
  let n := Binary64.ofInt
  [ { letter := ⟨.move, true⟩, operands := [n 1000, n 1000] },
    { letter := ⟨.smoothCubic, true⟩, operands := [n 9, n 9, n 0, n 0] },
    { letter := ⟨.smoothCubic, false⟩, operands := [n 5, n 9, n 10, n 0] } ]

lemma eq_of_isNone {outcome : Outcome} (h : outcome.2.isNone = true) : outcome = (outcome.1, none) := by
  obtain ⟨run, fault⟩ := outcome
  cases fault with
  | none => rfl
  | some fault => cases h

lemma readPath_of_toOption {text : List Char} {commands : List Command}
    (h : (readPath text).toOption = some commands) : readPath text = .ok commands := by
  cases hread : readPath text with
  | error fault =>
    rw [hread] at h
    cases h
  | ok others =>
    rw [hread] at h
    exact congrArg Except.ok (Option.some.inj h)

lemma exists_optimize_orphan : ∃ run, optimize orphan {} none = (run, none) ∧ run.output = orphan := by
  have hdone : (optimize orphan {} none).2.isNone = true ∧ (optimize orphan {} none).1.output = orphan := by
    rw [optimize_eq]
    constructor
    · decide +kernel
    · decide +kernel
  exact ⟨_, eq_of_isNone hdone.1, hdone.2⟩

lemma exists_optimize_chord : ∃ run, optimize chord {} none = (run, none) ∧
    run.output = "M1000 1000S9 9 0 0s5 9 10 0".toList := by
  have hdone : (optimize chord {} none).2.isNone = true ∧
      (optimize chord {} none).1.output = "M1000 1000S9 9 0 0s5 9 10 0".toList := by
    rw [optimize_eq]
    constructor
    · decide +kernel
    · decide +kernel
  exact ⟨_, eq_of_isNone hdone.1, hdone.2⟩

end Example

/-- The smooth cubic is printed as it was, so both sides hold. -/
theorem picture_optimize_iff_orphan : ∃ run, optimize Example.orphan {} none = (run, none) ∧
    run.output = Example.orphan ∧ ∃ printed, readPath run.output = .ok printed ∧
      printed = Example.orphanCommands ∧ printed.length = (singleCloses run.commands).length ∧
      picture printed = picture Example.orphanCommands ∧
      ∀ (i : ℕ) (command : Command), printed[i]? = some command → command.kind = .smoothCubic →
        (Hand.sights {} printed)[i]? = (Hand.sights {} (singleCloses run.commands))[i]? := by
  obtain ⟨run, hrun, houtput⟩ := Example.exists_optimize_orphan
  have hread : readPath Example.orphan = .ok Example.orphanCommands :=
    Example.readPath_of_toOption (by decide +kernel)
  have hfinite : ∀ c ∈ Example.orphanCommands, ∀ x ∈ c.operands, x.isFinite = true := by
    decide +kernel
  have hinteger : ∀ c ∈ Example.orphanCommands, c.Integer :=
    Example.integer_of_ofInt [0, 5, 9] (by decide) (by decide +kernel)
  have hnear : ∀ f ∈ figures value {} Example.orphanCommands, ∀ p ∈ f.points, Near p := by
    decide +kernel
  have hexact : Rule.AllExact Rule.all (prepared {} Example.orphanCommands) := by decide +kernel
  obtain ⟨printed, hprinted, hlength, hiff⟩ :=
    picture_optimize_iff hrun hread hfinite hinteger hnear hexact
  obtain rfl : printed = Example.orphanCommands :=
    Except.ok.inj (hprinted.symm.trans (houtput ▸ hread))
  exact ⟨run, hrun, houtput, _, hprinted, rfl, hlength, rfl, hiff.mp rfl⟩

/-- Integers, all of them small and all arithmetic exact, and yet the picture changes. -/
theorem picture_optimize_chord : ∃ run, optimize Example.chord {} none = (run, none) ∧
    readPath Example.chord = .ok Example.chordCommands ∧ (∀ c ∈ Example.chordCommands, c.Integer) ∧
    (∀ f ∈ figures value {} Example.chordCommands, ∀ p ∈ f.points, Near p) ∧
    Rule.AllExact Rule.all (prepared {} Example.chordCommands) ∧
    readPath run.output = .ok Example.chordPrinted ∧
    picture Example.chordPrinted ≠ picture Example.chordCommands := by
  obtain ⟨run, hrun, houtput⟩ := Example.exists_optimize_chord
  refine ⟨run, hrun, Example.readPath_of_toOption ?_, ?_, ?_, ?_, Example.readPath_of_toOption ?_, ?_⟩
  · decide +kernel
  · exact Example.integer_of_ofInt [1000, 9, 0, 5, 10] (by decide) (by decide +kernel)
  · decide +kernel
  · decide +kernel
  · rw [houtput]
    decide +kernel
  · decide +kernel

/-- Without shorter spellings every run keeps the picture. -/
theorem picture_optimize_of_present {text : List Char} {config : Config} {element : Option Element}
    {run : Run} {commands : List Command} (hpresent : config.keepSmallerCommand = false)
    (hrun : optimize text config element = (run, none)) (hread : readPath text = .ok commands)
    (hfinite : ∀ c ∈ commands, ∀ x ∈ c.operands, x.isFinite = true)
    (hinteger : ∀ c ∈ commands, c.Integer)
    (hnear : ∀ f ∈ figures value {} commands, ∀ p ∈ f.points, Near p)
    (hexact : Rule.AllExact Rule.all (prepared config commands)) :
    ∃ printed, readPath run.output = .ok printed ∧ picture printed = picture commands := by
  obtain ⟨printed, hprinted, -, hfigures, hpicture, -⟩ :=
    exists_written hrun hread hfinite hinteger hnear hexact
  refine ⟨printed, hprinted, ?_⟩
  rw [← hpicture, picture, picture, Hand.view_congr (hfigures hpresent)]

end TersePath
