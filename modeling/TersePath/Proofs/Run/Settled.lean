import TersePath.Proofs.Element.Compensation
import TersePath.Proofs.Pen.Choice
import TersePath.Proofs.Pen.Level
import TersePath.Proofs.Pen.Scaled
import TersePath.Proofs.Run.Picture
import TersePath.Run.Session

/-! A path in integer space stays there. Whichever spelling a run writes for a command, it is read back
with integer coordinates, so the next run finds nothing to scale and leaves the element alone. -/

namespace TersePath

open Picture Binary64

/-- A path that needs no scale, as it comes from a text. -/
structure Settled (commands : List Command) : Prop where
  head : BeginsWithMove commands
  bare : ∀ c ∈ commands, c.Bare
  fit : ∀ c ∈ commands, c.Fit
  plotted : Plotted {} commands

lemma Settled.exists_applyScale {commands : List Command} (h : Settled commands) :
    ∃ scaled, applyScale 1 commands = (scaled, none) ∧ Settled scaled := by
  obtain ⟨scaled, hscaled, hlevel, hsame⟩ :=
    level_scaleFrom (pen_at_origin 1) onGrid_origin h.plotted
  obtain ⟨hplotted, hfit⟩ := plotted_of_level hlevel h.plotted h.fit
  exact ⟨scaled, hscaled, beginsWithMove_of_same hsame h.head, bare_of_same hsame h.bare, hfit,
    hplotted⟩

section Written

variable {config : Config} {place : Place} {command : Command} {commands : List Command}

lemma exists_origin_of_prints (hstop : Stop Command.Fit config.devmode place command)
    (htidy : command.Tidy) :
    ∃ origin, Prints config origin command ∧ (origin.Proper ∧ origin.Bare ∧ origin.Fit) ∧
      place.step origin = place.step command ∧ (command.kind = .move → origin.kind = .move) := by
  have hself : chosenText config command = command.text config.devmode →
      ∃ origin, Prints config origin command ∧ (origin.Proper ∧ origin.Bare ∧ origin.Fit) ∧
        place.step origin = place.step command ∧ (command.kind = .move → origin.kind = .move) :=
    fun htext => ⟨{ command with absoluteText := none }, ⟨fun _ => htext.symm, rfl, Iff.rfl⟩,
      ⟨hstop.proper, ⟨htidy.openEnd, rfl⟩, htidy.fit.integer, htidy.fit.grid⟩, rfl, id⟩
  obtain htext | ⟨text, hkept, htext, -⟩ := chosenText_present_or_kept config command
  · exact hself htext
  · have hclose : command.kind ≠ .close := by
      intro hk
      cases (htidy.close hk).symm.trans hkept
    obtain ⟨origin, horigin⟩ := hstop.kept hclose text hkept
    refine ⟨origin, ⟨fun _ => ?_, horigin.bare.1.trans htidy.openEnd.symm, fun hk => absurd hk horigin.opened,
      fun hk => absurd hk hclose⟩, ⟨horigin.proper, horigin.bare, horigin.good⟩, horigin.step,
      horigin.move⟩
    rw [chosenText_bare config horigin.bare, ← horigin.text, htext]

lemma exists_origins_of_prints (hroute : Route Command.Fit config.devmode place commands)
    (htidy : ∀ c ∈ commands, c.Tidy) :
    ∃ origins, List.Forall₂ (Prints config) origins commands ∧
      (∀ o ∈ origins, o.Proper ∧ o.Bare ∧ o.Fit) ∧ place.trail origins = place.trail commands ∧
      (BeginsWithMove commands → BeginsWithMove origins) := by
  induction commands generalizing place with
  | nil => exact ⟨[], .nil, by simp, rfl, id⟩
  | cons command rest ih =>
    obtain ⟨hcommand, hrest⟩ := List.forall_mem_cons.mp htidy
    obtain ⟨origin, hprints, horigin, hstep, hmove⟩ := exists_origin_of_prints hroute.1 hcommand
    obtain ⟨origins, hall, horigins, htrail, -⟩ := ih hroute.2 hrest
    refine ⟨origin :: origins, .cons hprints hall, List.forall_mem_cons.mpr ⟨horigin, horigins⟩, ?_,
      fun hhead => beginsWithMove_cons (hmove (hhead command rfl)) _⟩
    rw [Place.trail, Place.trail, hstep, htrail]

lemma mem_trail_of_singleCloses {p : Place} (h : p ∈ place.trail (singleCloses commands)) :
    p ∈ place.trail commands := by
  induction commands generalizing place with
  | nil => exact h
  | cons command rest ih =>
    rw [singleCloses] at h
    split at h
    · next hboth =>
      obtain ⟨hclose, hnext⟩ := Bool.and_eq_true_iff.mp hboth
      obtain ⟨next, hhead, hkind⟩ := (Option.any_eq_true ..).mp hnext
      obtain ⟨others, rfl⟩ := List.head?_eq_some_iff.mp hhead
      have hsecond : (place.step command).trail (next :: others) = place.trail (next :: others) := by
        rw [Place.trail, Place.trail, step_of_close (beq_iff_eq.mp hkind),
          step_of_close (beq_iff_eq.mp hkind), step_of_close (beq_iff_eq.mp hclose)]
      rw [Place.trail, hsecond]
      exact List.mem_cons_of_mem _ (ih h)
    · rw [Place.trail] at h ⊢
      rcases List.mem_cons.mp h with rfl | h
      · exact List.mem_cons_self
      · exact List.mem_cons_of_mem _ (ih h)

lemma singleCloses_of_move (h : BeginsWithMove commands) : BeginsWithMove (singleCloses commands) ∧
    ∀ c ∈ (singleCloses commands).tail, c ∈ commands.tail := by
  cases commands with
  | nil => exact ⟨h, by simp [singleCloses]⟩
  | cons command rest =>
    have hmove : command.kind = .move := h command rfl
    rw [singleCloses_cons (by simp [hmove])]
    exact ⟨beginsWithMove_cons hmove _, fun c hc => mem_singleCloses hc⟩

lemma beginsWithMove_lowered (h : BeginsWithMove commands) :
    BeginsWithMove ((singleCloses commands).map Command.lowered) := by
  intro c hc
  rw [List.head?_map] at hc
  obtain ⟨o, ho, rfl⟩ := Option.map_eq_some_iff.mp hc
  exact (kind_lowered o).trans ((singleCloses_of_move h).1 o ho)

lemma fit_lowered (hproper : command.Proper) (hfit : command.Fit) :
    command.lowered.Proper ∧ command.lowered.Bare ∧ command.lowered.Fit := by
  rw [Command.lowered]
  split
  · exact ⟨by decide, ⟨rfl, rfl⟩, fun x hx => absurd hx (List.not_mem_nil (a := x)),
      fun _ x hx => absurd hx (List.not_mem_nil (a := x))⟩
  · have hlevel := level_reread hproper
    exact ⟨hlevel.proper, ⟨rfl, rfl⟩, hlevel.fit hfit⟩

theorem settled_serialize (strict : Bool) (hhead : BeginsWithMove commands)
    (hroute : Route Command.Fit config.devmode {} commands) (htidy : ∀ c ∈ commands, c.Tidy) :
    ∃ printed, parse strict (serialize config commands) = .ok printed ∧ Settled printed := by
  obtain ⟨origins, hprints, horigins, htrail, hmove⟩ := exists_origins_of_prints hroute htidy
  have hlowered : ∀ c ∈ (singleCloses origins).map Command.lowered, c.Proper ∧ c.Bare ∧ c.Fit := by
    intro c hc
    obtain ⟨origin, horigin, rfl⟩ := List.mem_map.mp hc
    obtain ⟨hproper, -, hfit⟩ := horigins origin (mem_singleCloses horigin)
    exact fit_lowered hproper hfit
  have halike : List.Forall₂ Alike (singleCloses origins)
      ((singleCloses origins).map Command.lowered) := by
    rw [List.forall₂_map_right_iff, List.forall₂_same]
    exact fun o ho => alike_lowered (horigins o (mem_singleCloses ho)).1
  refine ⟨(singleCloses origins).map Command.lowered, ?_, beginsWithMove_lowered (hmove hhead),
    fun c hc => (hlowered c hc).2.1, fun c hc => (hlowered c hc).2.2,
    fun c hc => (hlowered c hc).1, fun c hc => (hlowered c hc).2.2.integer, ?_⟩
  · rw [← serialize_prints hprints]
    exact parse_serialize_lowered config strict (hmove hhead) (fun o ho => (horigins o ho).1)
      fun o ho => (horigins o ho).2.1
  · rw [figures_of_alike halike, forall_target_iff]
    intro p hp
    have hmem := mem_trail_of_singleCloses hp
    rw [htrail] at hmem
    exact hroute.trail p hmem

lemma route_of_bare {good : Command → Prop} {spaced : Bool} (h : Plotted place commands)
    (hbare : ∀ c ∈ commands, c.Bare) : Route good spaced place commands := by
  induction commands generalizing place with
  | nil => trivial
  | cons command rest ih =>
    obtain ⟨⟨hproper, -, hend⟩, hrest⟩ := plotted_cons.mp h
    obtain ⟨hcommand, hothers⟩ := List.forall_mem_cons.mp hbare
    exact ⟨.of_bare hproper hend hcommand.2, ih hrest hothers⟩

lemma Settled.prepared
    (h : Settled (applyScale (resolveScale commands config.maxDecimalPlaces) commands).1) :
    Route Command.Fit config.devmode {} (prepared config commands) ∧
      (∀ c ∈ prepared config commands, c.Tidy) ∧ BeginsWithMove (prepared config commands) := by
  simp only [TersePath.prepared]
  split
  · have hfollows : Follows Command.Fit config.devmode {} _ _ :=
      follows_toRelative h.plotted fun c hc => ⟨(h.fit c hc).integer, (h.fit c hc).grid⟩
    exact ⟨hfollows.route, hfollows.tidy fun c hc => ⟨h.bare c hc, h.fit c hc⟩,
      beginsWithMove_toRelative h.head⟩
  · exact ⟨route_of_bare h.plotted h.bare, fun c hc => tidy_of_bare (h.bare c hc) (h.fit c hc), h.head⟩

theorem Settled.exists_written (strict : Bool)
    (h : Settled (applyScale (resolveScale commands config.maxDecimalPlaces) commands).1) :
    ∃ printed, parse strict (serialize config (simplify (TersePath.prepared config commands))) =
      .ok printed ∧ Settled printed := by
  obtain ⟨hroute, htidy, hhead⟩ := h.prepared
  obtain ⟨hsimple, hkeeps⟩ := route_simplify onGrid_origin hroute
  exact settled_serialize strict (beginsWithMove_simplify hhead) hsimple (hkeeps htidy)

end Written

section Again

variable {config : Config} {text : List Char} {commands : List Command}

/-- A run over a settled path succeeds, leaves the element alone and writes a settled path. -/
theorem Settled.exists_run (h : Settled commands) (hparse : parse config.strictNumbers text = .ok commands)
    (element : Option Element) :
    ∃ run, optimize text config element = (run, none) ∧ run.scale = 1 ∧ run.element = element ∧
      ∃ printed, parse config.strictNumbers run.output = .ok printed ∧ Settled printed := by
  have hscale := resolveScale_of_integer h.plotted.integer config.maxDecimalPlaces
  obtain ⟨scaled, hscaled, hsettled⟩ := h.exists_applyScale
  obtain ⟨run, hrun⟩ := exists_optimize element hparse hscale (congrArg Prod.snd hscaled)
  obtain ⟨others, hdone⟩ := exists_of_optimize hrun
  obtain rfl : others = commands := Except.ok.inj (hdone.parse.symm.trans hparse)
  have hone : run.scale = 1 := hdone.scale.trans hscale
  have helement : run.element = element := by
    rw [hdone.element, hone, ownerAfter, if_neg (by decide)]
  refine ⟨run, hrun, hone, helement, ?_⟩
  rw [hdone.output]
  refine Settled.exists_written config.strictNumbers ?_
  rw [hscale, Nat.cast_one, hscaled]
  exact hsettled

theorem Settled.exists_runs (h : Settled commands)
    (hparse : parse config.strictNumbers text = .ok commands) (element : Option Element) (count : ℕ) :
    ∃ runs, optimizeRepeatedly config count text element = .ok runs ∧ runs.length = count ∧
      ∀ run ∈ runs, run.scale = 1 ∧ run.element = element := by
  induction count generalizing text commands with
  | zero => exact ⟨[], rfl, rfl, by simp⟩
  | succ count ih =>
    obtain ⟨run, hrun, hscale, helement, printed, hprinted, hsettled⟩ := h.exists_run hparse element
    obtain ⟨runs, hruns, hlength, hall⟩ := ih hsettled hprinted
    refine ⟨run :: runs, ?_, by rw [List.length_cons, hlength],
      List.forall_mem_cons.mpr ⟨⟨hscale, helement⟩, hall⟩⟩
    rw [optimizeRepeatedly, hrun]
    change (optimizeRepeatedly config count run.output run.element).bind _ = _
    rw [helement, hruns]
    rfl

end Again

section First

variable {config : Config} {scale : ℤ} {commands scaled : List Command} {arc : Command}

lemma kind_of_unscaled {kind : Kind} {i : ℕ} (h : kind.role i = .unscaled) : kind = .arc := by
  cases kind with
  | arc => rfl
  | _ => cases h

lemma exists_arc_relativeFrom {spaced : Bool} {cursor : Cursor} (harc : arc.kind = .arc)
    (h : arc ∈ commands) : ∃ other ∈ relativeFrom spaced cursor commands, other.kind = .arc ∧
      ∀ i, arc.kind.role i = .unscaled → other.operands[i]? = arc.operands[i]? := by
  induction commands generalizing cursor with
  | nil => cases h
  | cons command rest ih =>
    rw [relativeFrom]
    rcases List.mem_cons.mp h with rfl | h
    · refine ⟨_, List.mem_cons_self, ?_⟩
      rw [if_neg (by rw [harc]; decide)]
      split
      · refine ⟨harc, fun i hrole => ?_⟩
        have hkept : (arc.keepText spaced).kind.role i = .unscaled := hrole
        simp only [Command.relativeTo, Command.mapOperands, List.getElem?_mapIdx, hkept]
        exact Option.map_id'
      · exact ⟨harc, fun i _ => rfl⟩
    · obtain ⟨other, hother, hkeeps⟩ := ih h
      exact ⟨other, List.mem_cons_of_mem _ hother, hkeeps⟩

lemma exists_arc_toRelative {spaced : Bool} (harc : arc.kind = .arc) (h : arc ∈ commands) :
    ∃ other ∈ toRelative spaced commands, other.kind = .arc ∧
      ∀ i, arc.kind.role i = .unscaled → other.operands[i]? = arc.operands[i]? := by
  cases commands with
  | nil => cases h
  | cons command rest =>
    rw [toRelative]
    rcases List.mem_cons.mp h with rfl | h
    · refine ⟨_, List.mem_cons_self, ?_⟩
      rw [if_neg (by rw [harc]; decide)]
      exact ⟨harc, fun i _ => rfl⟩
    · obtain ⟨other, hother, hkeeps⟩ := exists_arc_relativeFrom harc h
      exact ⟨other, List.mem_cons_of_mem _ hother, hkeeps⟩

lemma operands_markClosed (commands : List Command) :
    (markClosed commands).map Command.operands = commands.map Command.operands := by
  induction commands with
  | nil => rfl
  | cons command rest ih =>
    rw [markClosed, List.map_cons, List.map_cons, ih]
    split
    · rfl
    · rfl

lemma proper_of_written (hwell : ∀ s ∈ scaled, s.WellFormed) (hsmall : ∀ s ∈ scaled, s.Small)
    (hfinite : ∀ c ∈ markClosed (simplify (if config.convertToRelative then
      toRelative config.devmode scaled else scaled)), ∀ x ∈ c.operands, x.isFinite = true) :
    ∀ s ∈ scaled, s.Proper := by
  intro s hs
  refine ⟨hwell s hs, fun x hx => ?_⟩
  obtain ⟨i, hi, rfl⟩ := List.getElem_of_mem hx
  by_cases hrole : s.kind.role i = .unscaled
  · have harc := kind_of_unscaled hrole
    have hkept : ∃ other ∈ (if config.convertToRelative then toRelative config.devmode scaled
        else scaled), other.kind = .arc ∧
          ∀ i, s.kind.role i = .unscaled → other.operands[i]? = s.operands[i]? := by
      split
      · exact exists_arc_toRelative harc hs
      · exact ⟨s, hs, harc, fun i _ => rfl⟩
    obtain ⟨other, hother, hotherArc, hoperands⟩ := hkept
    have hmem := List.mem_map_of_mem (f := Command.operands) (mem_simplify_of_arc hotherArc hother)
    rw [← operands_markClosed] at hmem
    obtain ⟨marked, hmarked, heq⟩ := List.mem_map.mp hmem
    refine hfinite marked hmarked _ ?_
    rw [heq]
    exact List.mem_of_getElem? ((hoperands i hrole).trans (List.getElem?_eq_getElem hi))
  · exact (hsmall s hs _ (Command.mem_scaledOperands.mpr ⟨i, hi, hrole, rfl⟩)).1

lemma settled_of_small {text : List Char} {element : Option Element} {run : Run}
    (hdone : run.Done text config element commands) (hfinite : run.hasFiniteOperands = true)
    (hsmall : ∀ s ∈ (applyScale run.scale commands).1, s.Small)
    (hnear : ∀ f ∈ figures value {} (applyScale run.scale commands).1, Near f.target) :
    Settled (applyScale (resolveScale commands config.maxDecimalPlaces) commands).1 := by
  obtain ⟨hhead, hread⟩ := read_of_parse hdone.parse
  have hfault := hdone.fault
  have hall : ∀ c ∈ run.commands, ∀ x ∈ c.operands, x.isFinite = true := by
    simpa [Run.hasFiniteOperands, List.all_eq_true] using hfinite
  rw [hdone.commands, prepared] at hall
  rw [hdone.scale] at hsmall hnear hfault
  generalize hscaled : applyScale (resolveScale commands config.maxDecimalPlaces) commands = outcome at *
  obtain ⟨scaled, fault⟩ := outcome
  obtain rfl : fault = none := hfault
  obtain ⟨hgrid, hsame⟩ := scaleFrom_whole whole_origin (fun c hc => (hread c hc).1) hscaled hsmall
  have hproper := proper_of_written (fun s hs => (hgrid s hs).2) hsmall hall
  have hfit : ∀ s ∈ scaled, s.Fit := fun s hs => (hgrid s hs).1.fit (hproper s hs)
  exact ⟨beginsWithMove_of_same hsame hhead, bare_of_same hsame fun c hc => (hread c hc).2, hfit,
    plotted_of_near hproper (fun s hs => (hfit s hs).integer) hnear⟩

end First

/-- A run compensates the element for a scale of more than one. However often its output is optimized
again, the scale is one and the element stays as the first run left it. -/
theorem element_of_rerun {text : List Char} {config : Config} {element : Option Element} {run : Run}
    {commands : List Command} (hrun : optimize text config element = (run, none))
    (hread : readPath text = .ok commands) (hfinite : run.hasFiniteOperands = true)
    (hsmall : ∀ s ∈ (applyScale run.scale commands).1, s.Small)
    (hnear : ∀ f ∈ figures value {} (applyScale run.scale commands).1, Near f.target) :
    run.element = (if 1 < run.scale then element.map fun owner => (owner.compensate run.scale).1
      else element) ∧
    (∀ owner ∈ element, ∀ width, (owner.Outlined →
        owner.nearestWidth.timesInteger run.scale = .ok width ∧ width.isFinite = true) →
      owner.Compensated (owner.compensate run.scale).1 (.ofRatio false Binary64.one run.scale) width) ∧
    (∃ again, optimize run.output config run.element = (again, none) ∧ again.scale = 1 ∧
      again.element = run.element) ∧
    ∀ count, ∃ runs, optimizeRepeatedly config count run.output run.element = .ok runs ∧
      runs.length = count ∧ ∀ again ∈ runs, again.scale = 1 ∧ again.element = run.element := by
  obtain ⟨others, hdone⟩ := exists_of_optimize hrun
  obtain rfl : others = commands :=
    Except.ok.inj ((readPath_of_parse hdone.parse).symm.trans hread)
  obtain ⟨printed, hprinted, hsettled⟩ :=
    (settled_of_small hdone hfinite hsmall hnear).exists_written config.strictNumbers
  rw [← hdone.output] at hprinted
  obtain ⟨again, hagain, hscale, helement, -⟩ := hsettled.exists_run hprinted run.element
  have hpositive : 0 < run.scale := by
    rw [hdone.scale, resolveScale_eq]
    exact Nat.pow_pos (by norm_num)
  refine ⟨hdone.element, fun owner _ width hwidth => ?_, ⟨again, hagain, hscale, helement⟩,
    hsettled.exists_runs hprinted run.element⟩
  obtain ⟨after, hafter, hcompensated⟩ := exists_compensated hpositive hwidth
  rw [hafter]
  exact hcompensated

namespace Example

def quarter : List Char := "M1.25 0a1 1 30 0 1 2.5 0z".toList

def quarterCommands : List Command :=
  [ { letter := ⟨.move, true⟩, operands := [hundredths 125, hundredths 0] },
    { letter := ⟨.arc, false⟩, operands := [Binary64.ofInt 1, Binary64.ofInt 1, Binary64.ofInt 30,
      Binary64.ofInt 0, Binary64.ofInt 1, hundredths 250, hundredths 0] },
    { letter := ⟨.close, false⟩, operands := [] } ]

def outlined : Element :=
  { attributes := { given := [("stroke", "red")] }
    ancestors := [{ given := [("stroke-width", "2")] }] }

lemma exists_optimize_quarter : ∃ run, optimize quarter {} (some outlined) = (run, none) ∧
    run.scale = 100 ∧ run.hasFiniteOperands = true ∧ run.element = some
      { attributes := { given := [("stroke", "red"), ("transform", "scale(.01)"), ("stroke-width", "200")] }
        ancestors := outlined.ancestors } := by
  have hdone : (optimize quarter {} (some outlined)).2.isNone = true ∧
      (optimize quarter {} (some outlined)).1.scale = 100 ∧
      (optimize quarter {} (some outlined)).1.hasFiniteOperands = true ∧
      (optimize quarter {} (some outlined)).1.element = some
        { attributes :=
            { given := [("stroke", "red"), ("transform", "scale(.01)"), ("stroke-width", "200")] }
          ancestors := outlined.ancestors } := by
    rw [optimize_eq]
    refine ⟨?_, ?_, ?_, ?_⟩
    · decide +kernel
    · decide +kernel
    · decide +kernel
    · decide +kernel
  exact ⟨_, eq_of_isNone hdone.1, hdone.2⟩

end Example

theorem element_of_rerun_quarter :
    ∃ run, optimize Example.quarter {} (some Example.outlined) = (run, none) ∧ run.scale = 100 ∧
    run.element = some
      { attributes := { given := [("stroke", "red"), ("transform", "scale(.01)"), ("stroke-width", "200")] }
        ancestors := Example.outlined.ancestors } ∧
    Example.outlined.Compensated (Example.outlined.compensate 100).1 (.ofRatio false Binary64.one 100)
      (.ofInt 200) ∧
    (∃ again, optimize run.output {} run.element = (again, none) ∧ again.scale = 1 ∧
      again.element = run.element) ∧
    ∀ count, ∃ runs, optimizeRepeatedly {} count run.output run.element = .ok runs ∧
      runs.length = count ∧ ∀ again ∈ runs, again.scale = 1 ∧ again.element = run.element := by
  obtain ⟨run, hrun, hscale, hfinite, helement⟩ := Example.exists_optimize_quarter
  have hread : readPath Example.quarter = .ok Example.quarterCommands :=
    Example.readPath_of_toOption (by decide +kernel)
  have hsmall : ∀ s ∈ (applyScale run.scale Example.quarterCommands).1, s.Small := by
    rw [hscale]
    decide +kernel
  have hnear : ∀ f ∈ figures value {} (applyScale run.scale Example.quarterCommands).1,
      Near f.target := by
    rw [hscale]
    decide +kernel
  have hwidth : Example.outlined.nearestWidth.timesInteger (100 : ℕ) = .ok (.ofInt 200) := by
    decide +kernel
  obtain ⟨-, hcompensated, hrerun⟩ := element_of_rerun hrun hread hfinite hsmall hnear
  rw [hscale] at hcompensated
  exact ⟨run, hrun, hscale, helement,
    hcompensated _ rfl (.ofInt 200) fun _ => ⟨hwidth, by decide +kernel⟩, hrerun⟩

end TersePath
