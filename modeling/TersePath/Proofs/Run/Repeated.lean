import TersePath.Proofs.Path.Recovered
import TersePath.Proofs.Path.Surplus
import TersePath.Proofs.Run.Settled

/-! Runs that find nothing more to do. What a run prints is read back and made relative as a path that
stands for the one that it has printed; the rules keep it so, and it is printed again as it was, if
only the rules on straight curves left no such curve behind. -/

namespace TersePath

open Picture Binary64

section Origins

variable {config : Config} {commands origins : List Command}

lemma exists_origins_of_keeps (strict : Bool) (hmove : BeginsWithMove commands)
    (hproper : ∀ c ∈ commands, c.Proper) (hkeeps : KeepsAll config.devmode {} commands) :
    ∃ origins, parse strict (serialize config commands) = .ok (origins.map Command.lowered) ∧
      RespellsAll {} origins (singleCloses commands) ∧
      List.Forall₂ (Prints config) origins (singleCloses commands) ∧
      ∀ o ∈ origins, o.Proper ∧ o.Bare := by
  obtain ⟨origins, hall, hprints, horigins, -⟩ := exists_printed hproper hkeeps
  have hhead : BeginsWithMove origins := by
    cases hall with
    | nil => exact hmove
    | @cons _ origin command _ _ head _ =>
      exact beginsWithMove_cons (head.move (hproper command List.mem_cons_self) (hmove command rfl)) _
  refine ⟨singleCloses origins, ?_, hall.singleCloses,
    forall₂_singleCloses hprints fun _ _ => Prints.kind, fun o ho => horigins o (mem_singleCloses ho)⟩
  rw [← serialize_prints hprints]
  exact parse_serialize_lowered config strict hhead (fun o ho => (horigins o ho).1)
    fun o ho => (horigins o ho).2

/-- What the rules are given of a printed path. -/
structure Reread (config : Config) (origins others : List Command) : Prop where
  retold : List.Forall₂ (Retold config) origins others
  figures : figures value {} others = figures value {} origins
  proper : ∀ c ∈ others, c.Proper
  first : ∀ o ∈ origins.head?, ∀ c ∈ others.head?, c.letter = o.letter
  counted : ∀ c ∈ others.tail, c.Counted

lemma figures_of_level {scaled : List Command} (h : List.Forall₂ Level commands scaled)
    (hproper : ∀ c ∈ commands, c.Proper) (place : Place) :
    figures value place scaled = figures value place commands :=
  figures_of_alike (((List.forall₂_and_left _ _).mpr ⟨hproper, h⟩).imp fun _ _ hc =>
    ⟨congrArg Letter.kind hc.2.letter, hc.2.figure hc.1⟩)

lemma first_toRelative {scaled : List Command} {spaced : Bool} (hhead : BeginsWithMove (origins.map Command.lowered))
    (h : List.Forall₂ Level (origins.map Command.lowered) scaled) :
    ∀ o ∈ origins.head?, ∀ c ∈ (toRelative spaced scaled).head?, c.letter = o.letter := by
  cases origins with
  | nil => simp
  | cons origin rest =>
    cases h with
    | @cons _ first _ _ hlevel _ =>
      intro o ho c hc
      obtain rfl := Option.some.inj ho
      have hmove : origin.kind = .move := (kind_lowered origin).symm.trans (hhead _ rfl)
      have hlowered : origin.lowered = origin.reread := if_neg (by simp [hmove])
      have hletter : c.letter = first.letter := by
        obtain rfl := Option.some.inj hc
        split <;> rfl
      rw [hletter, hlevel.letter, hlowered]
      rfl

lemma prepared_relative (hrelative : config.convertToRelative = true) : prepared config commands =
    toRelative config.devmode (applyScale (resolveScale commands config.maxDecimalPlaces) commands).1 := by
  rw [prepared, hrelative]
  rfl

lemma reread_prepared (hrelative : config.convertToRelative = true) (horigins : ∀ o ∈ origins, o.Proper)
    (h : Settled (origins.map Command.lowered)) :
    Reread config origins (prepared config (origins.map Command.lowered)) := by
  obtain ⟨scaled, hscaled, hlevel, hsame⟩ := level_scaleFrom (pen_at_origin 1) onGrid_origin h.plotted
  obtain ⟨hplotted, hfit⟩ := plotted_of_level hlevel h.plotted h.fit
  have hprepared : prepared config (origins.map Command.lowered) = toRelative config.devmode scaled := by
    have hone : applyScale 1 (origins.map Command.lowered) = (scaled, none) := hscaled
    rw [prepared_relative hrelative, resolveScale_of_integer h.plotted.integer, Nat.cast_one, hone]
  have hlowered : List.Forall₂ Alike origins (origins.map Command.lowered) := by
    rw [List.forall₂_map_right_iff, List.forall₂_same]
    exact fun o ho => alike_lowered (horigins o ho)
  have hfollows : Follows (fun _ => True) config.devmode {} scaled (toRelative config.devmode scaled) :=
    follows_toRelative hplotted fun _ _ => trivial
  rw [hprepared]
  refine ⟨forall₂_retold horigins hlevel hsame (respelled_toRelative _ _), ?_, hfollows.route.proper,
    first_toRelative h.head hlevel, absolute_toRelative⟩
  calc figures value {} (toRelative config.devmode scaled)
    _ = figures value {} scaled :=
      figures_toRelative hplotted.proper (fun c hc => (hfit c hc).grid) hplotted.targets
    _ = figures value {} (origins.map Command.lowered) := figures_of_level hlevel h.plotted.proper {}
    _ = figures value {} origins := figures_of_alike hlowered

end Origins

section Rerun

variable {config : Config} {text : List Char} {element : Option Element} {run : Run}
  {commands origins others : List Command}

theorem serialize_simplify_of_reread (hkeep : config.keepSmallerCommand = true)
    (hspent : Windows Spent none (singleCloses commands)) (hmove : BeginsWithMove (singleCloses commands))
    (hopen : ∀ c ∈ commands, c.closesSubpath = false) (hcounted : ∀ c ∈ (singleCloses commands).tail, c.Counted)
    (hrespells : RespellsAll {} origins (singleCloses commands))
    (hprints : List.Forall₂ (Prints config) origins (singleCloses commands))
    (horigins : ∀ o ∈ origins, o.Proper ∧ o.Bare) (h : Reread config origins others) :
    serialize config (simplify others) = serialize config commands := by
  have hproper := forall_of_windows (hspent.imp fun _ _ _ hc => hc.proper)
  have hrecovers : List.Forall₂ (Recovers config) (singleCloses commands) others :=
    forall₂_recovers_of_head hrespells hprints h.retold horigins
      (fun c hc => ⟨hproper c hc, hopen c (mem_singleCloses hc)⟩) h.proper hmove h.first hcounted h.counted
  have habreast := abreast_of_respells (hrespells.of_figures h.figures) hrecovers hspent (by simp) rfl
  have hprinted := (habreast.simplify hspent).prints hkeep
  calc serialize config (simplify others)
    _ = serialize config (singleCloses commands) := serialize_prints hprinted
    _ = serialize config commands := by rw [serialize, serialize, foldCloses_singleCloses]

lemma open_of_keepsAll {spaced : Bool} {hand : Hand} (h : KeepsAll spaced hand commands) :
    ∀ c ∈ commands, c.closesSubpath = false := by
  induction commands generalizing hand with
  | nil => simp
  | cons command rest ih => exact List.forall_mem_cons.mpr ⟨h.1.openEnd, ih h.2⟩

lemma windows_spent_prepared (hrelative : config.convertToRelative = true)
    (hproper : ∀ c ∈ simplify (prepared config commands), c.Proper)
    (hopen : ∀ c ∈ simplify (prepared config commands), c.closesSubpath = false)
    (hstraight : Rule.straightCubics.apply (markClosed (simplify (prepared config commands))) =
      markClosed (simplify (prepared config commands))) :
    Windows Spent none (singleCloses (simplify (prepared config commands))) := by
  refine windows_spent ?_ (fun c hc => hproper c (mem_singleCloses hc))
    (drawn_straight.singleCloses (windows_straight hopen hstraight))
  rw [prepared_relative hrelative]
  exact faithful_of_respelled (respelled_toRelative _ _)

/-- If the first rule finds nothing to do in what a run leaves, the output is optimized to itself. -/
theorem output_of_rerun (hrun : optimize text config element = (run, none))
    (hread : readPath text = .ok commands) (hrelative : config.convertToRelative = true)
    (hkeep : config.keepSmallerCommand = true)
    (hfinite : ∀ c ∈ commands, ∀ x ∈ c.operands, x.isFinite = true) (hfit : ∀ c ∈ commands, c.Fit)
    (hnear : ∀ f ∈ figures value {} commands, ∀ p ∈ f.points, Near p)
    (hexact : Rule.AllExact Rule.all (prepared config commands))
    (hstraight : Rule.straightCubics.apply run.commands = run.commands) :
    ∃ again, optimize run.output config run.element = (again, none) ∧ again.output = run.output ∧
      again.element = run.element := by
  obtain ⟨others, hdone⟩ := exists_of_optimize hrun
  obtain rfl : others = commands :=
    Except.ok.inj ((readPath_of_parse hdone.parse).symm.trans hread)
  obtain ⟨hhead, hcommands⟩ := read_of_parse hdone.parse
  have hproper : ∀ c ∈ others, c.Proper := fun c hc => ⟨(hcommands c hc).1, hfinite c hc⟩
  have hinteger : ∀ c ∈ others, c.Integer := fun c hc => (hfit c hc).integer
  have hsettled : Settled others := ⟨hhead, fun c hc => (hcommands c hc).2, hfit,
    plotted_of_near hproper hinteger fun f hf => hnear f hf _ (target_mem_points f)⟩
  -- what the first run prints
  have hprepared : Prepared config others :=
    prepared_of_integer hhead hproper (fun c hc => (hcommands c hc).2) hinteger hnear
  have hredraws := redraws_foldl_apply Rule.all hprepared.proper hexact
  have hkeeps := hredraws.keeps _ hprepared.keeps
  have hmove := beginsWithMove_simplify hprepared.head
  obtain ⟨origins, hparse, hrespells, hprints, horigins⟩ :=
    exists_origins_of_keeps config.strictNumbers hmove hredraws.proper hkeeps
  have houtput : parse config.strictNumbers run.output = .ok (origins.map Command.lowered) := by
    rw [hdone.output]
    exact hparse
  obtain ⟨same, hsame, -, -, printed, hprinted, hprintedSettled⟩ := hsettled.exists_run hdone.parse element
  obtain rfl : same = run := congrArg Prod.fst (hsame.symm.trans hrun)
  obtain rfl : printed = origins.map Command.lowered := Except.ok.inj (hprinted.symm.trans houtput)
  -- what the second run makes of that
  obtain ⟨again, hagain, -, helement, -⟩ := hprintedSettled.exists_run houtput same.element
  obtain ⟨_, hdoneAgain⟩ := exists_of_optimize hagain
  obtain rfl := Except.ok.inj (hdoneAgain.parse.symm.trans houtput)
  have hreread := reread_prepared hrelative (fun o ho => (horigins o ho).1) hprintedSettled
  have hopen := open_of_keepsAll hkeeps
  have hcounted : ∀ c ∈ (simplify (prepared config others)).tail, c.Counted := by
    refine maintained_counted.tail_simplify hprepared.head ?_
    rw [prepared_relative hrelative]
    exact absolute_toRelative
  rw [hdone.commands] at hstraight
  have hspent := windows_spent_prepared hrelative hredraws.proper hopen hstraight
  obtain ⟨hfirst, htail⟩ := singleCloses_of_move hmove
  refine ⟨again, hagain, ?_, helement⟩
  rw [hdoneAgain.output, hdone.output]
  exact serialize_simplify_of_reread hkeep hspent hfirst hopen (fun c hc => hcounted c (htail c hc)) hrespells
    hprints horigins hreread

end Rerun

namespace Example

def kept : List Char := "M10 10S0 5 9 0L20 20H30ZM5 5C5 5 7 9 12 3".toList

def keptCommands : List Command :=
  let n := Binary64.ofInt
  [ { letter := ⟨.move, true⟩, operands := [n 10, n 10] },
    { letter := ⟨.smoothCubic, true⟩, operands := [n 0, n 5, n 9, n 0] },
    { letter := ⟨.line, true⟩, operands := [n 20, n 20] },
    { letter := ⟨.horizontal, true⟩, operands := [n 30] },
    { letter := ⟨.close, true⟩, operands := [] },
    { letter := ⟨.move, true⟩, operands := [n 5, n 5] },
    { letter := ⟨.cubic, true⟩, operands := [n 5, n 5, n 7, n 9, n 12, n 3] } ]

lemma exists_optimize_kept : ∃ run, optimize kept {} none = (run, none) ∧
    run.output = "M10 10S0 5 9 0l11 20h10zM5 5c0 0 2 4 7-2".toList ∧
    Rule.straightCubics.apply run.commands = run.commands := by
  have hdone : (optimize kept {} none).2.isNone = true ∧
      (optimize kept {} none).1.output = "M10 10S0 5 9 0l11 20h10zM5 5c0 0 2 4 7-2".toList ∧
      Rule.straightCubics.apply (optimize kept {} none).1.commands = (optimize kept {} none).1.commands := by
    rw [optimize_eq]
    refine ⟨?_, ?_, ?_⟩
    · decide +kernel
    · decide +kernel
    · decide +kernel
  exact ⟨_, eq_of_isNone hdone.1, hdone.2⟩

end Example

theorem output_of_rerun_kept : ∃ run, optimize Example.kept {} none = (run, none) ∧
    run.output = "M10 10S0 5 9 0l11 20h10zM5 5c0 0 2 4 7-2".toList ∧
    Rule.straightCubics.apply run.commands = run.commands ∧
    ∃ again, optimize run.output {} run.element = (again, none) ∧ again.output = run.output ∧
      again.element = run.element := by
  obtain ⟨run, hrun, houtput, hstraight⟩ := Example.exists_optimize_kept
  have hread : readPath Example.kept = .ok Example.keptCommands :=
    Example.readPath_of_toOption (by decide +kernel)
  have hproper : ∀ c ∈ Example.keptCommands, c.Proper := by decide +kernel
  have hgrid : ∀ c ∈ Example.keptCommands, c.OnGrid :=
    Example.onGrid_of_ofInt [0, 3, 5, 7, 9, 10, 12, 20, 30] (by decide) (by decide +kernel)
  have hnear : ∀ f ∈ figures value {} Example.keptCommands, ∀ p ∈ f.points, Near p := by
    decide +kernel
  have hexact : Rule.AllExact Rule.all (prepared {} Example.keptCommands) := by decide +kernel
  exact ⟨run, hrun, houtput, hstraight, output_of_rerun hrun hread rfl rfl (fun c hc => (hproper c hc).2)
    (fun c hc => (hgrid c hc).fit (hproper c hc)) hnear hexact hstraight⟩

end TersePath
