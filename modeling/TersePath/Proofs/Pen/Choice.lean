import TersePath.Proofs.Pen.Relative
import TersePath.Proofs.Pen.Rules
import TersePath.Proofs.Picture.Printed

namespace TersePath

open Picture Binary64

section Texts

variable {spaced : Bool} {commands : List Command}

lemma squeezes_texts (h : ∀ c ∈ commands, c.Proper) :
    Squeezes (commands.flatMap (Command.text spaced)) (commands.flatMap (Command.text false)) := by
  induction commands with
  | nil => exact .nil
  | cons command rest ih =>
    obtain ⟨hcommand, hrest⟩ := List.forall_mem_cons.mp h
    exact (squeezes_text spaced hcommand.2).append (ih hrest)

lemma endsPlain_texts (h : ∀ c ∈ commands, c.Proper) :
    EndsPlain (commands.flatMap (Command.text false)) := by
  induction commands with
  | nil => exact endsPlain_of_forall (by simp)
  | cons command rest ih =>
    obtain ⟨hcommand, hrest⟩ := List.forall_mem_cons.mp h
    exact (endsPlain_text hcommand.2).append (ih hrest)

lemma reads_texts (strict : Bool) (h : ∀ c ∈ commands, c.Proper) :
    Reads strict (commands.flatMap (Command.text false)) [] (commands.map Command.reread) := by
  induction commands with
  | nil => exact .nil
  | cons command rest ih =>
    obtain ⟨hcommand, hrest⟩ := List.forall_mem_cons.mp h
    exact (ih hrest).word command hcommand (by simp)

theorem parse_texts (strict spaced : Bool) (hhead : BeginsWithMove commands)
    (h : ∀ c ∈ commands, c.Proper) :
    parse strict (commands.flatMap (Command.text spaced)) = .ok (commands.map Command.reread) := by
  cases commands with
  | nil => rfl
  | cons command rest =>
    have hwords := (reads_texts strict h).words
    have hends := endsPlain_texts h
    rw [parse, normalizeSeparators_eq, (squeezes_texts h).eq]
    rw [List.flatMap_cons, Command.text, List.cons_append] at hwords hends ⊢
    rw [following_cons (isCommandStart_char _)] at hwords
    rw [trim_eq hends]
    exact commandsOf_words (hhead command rfl) hwords

end Texts

namespace Picture

def Place.trail (place : Place) : List Command → List Place
  | [] => []
  | command :: rest => place.step command :: (place.step command).trail rest

lemma trail_reread {place : Place} {commands : List Command} (h : ∀ c ∈ commands, c.Proper) :
    place.trail (commands.map Command.reread) = place.trail commands := by
  induction commands generalizing place with
  | nil => rfl
  | cons command rest ih =>
    obtain ⟨hcommand, hrest⟩ := List.forall_mem_cons.mp h
    have hstep : place.step command.reread = place.step command := by
      rw [Place.step, Place.step, figure_reread hcommand]
    rw [List.map_cons, Place.trail, Place.trail, hstep, ih hrest]

lemma Route.trail {good : Command → Prop} {spaced : Bool} {place : Place} {commands : List Command}
    (h : Route good spaced place commands) : ∀ p ∈ place.trail commands, OnGrid p.point := by
  induction commands generalizing place with
  | nil => simp [Place.trail]
  | cons command rest ih => exact List.forall_mem_cons.mpr ⟨h.1.grid, ih h.2⟩

lemma forall_target_iff {place : Place} {commands : List Command} {P : Point → Prop} :
    (∀ f ∈ figures value place commands, P f.target) ↔ ∀ p ∈ place.trail commands, P p.point := by
  induction commands generalizing place with
  | nil => simp [figures, Place.trail]
  | cons command rest ih =>
    rw [figures, Place.trail, List.forall_mem_cons, List.forall_mem_cons, ih, Place.step,
      Place.point_after]

lemma trace_at {cursor : Cursor} {place : Place} {commands : List Command} (hat : cursor.At place)
    (hproper : ∀ c ∈ commands, c.Proper) (hgrid : ∀ p ∈ place.trail commands, OnGrid p.point) :
    List.Forall₂ Cursor.At (cursor.trace commands) (place.trail commands) := by
  induction commands generalizing cursor place with
  | nil => exact .nil
  | cons command rest ih =>
    obtain ⟨hcommand, hrest⟩ := List.forall_mem_cons.mp hproper
    obtain ⟨hend, hlater⟩ := List.forall_mem_cons.mp hgrid
    have hadvance : (cursor.advance command).At (place.step command) :=
      hat.advance hcommand (Place.point_after .. ▸ hend)
    exact .cons hadvance (ih hadvance hrest hlater)

end Picture

/-- Two pens at one position. -/
def Cursor.Meets (a b : Cursor) : Prop := a.x.equals b.x = true ∧ a.y.equals b.y = true

instance (a b : Cursor) : Decidable (a.Meets b) := inferInstanceAs (Decidable (_ ∧ _))

lemma Cursor.At.meets {a b : Cursor} {place : Place} (ha : a.At place) (hb : b.At place) : a.Meets b :=
  ⟨(equals_iff ha.x.1 hb.x.1).mpr (ha.x.2.trans hb.x.2.symm),
    (equals_iff ha.y.1 hb.y.1).mpr (ha.y.2.trans hb.y.2.symm)⟩

lemma forall₂_meets {xs ys : List Cursor} {places : List Place} (hx : List.Forall₂ Cursor.At xs places)
    (hy : List.Forall₂ Cursor.At ys places) : List.Forall₂ Cursor.Meets xs ys := by
  induction hx generalizing ys with
  | nil =>
    cases hy
    exact .nil
  | cons hat _ ih =>
    cases hy with
    | cons hat' hrest => exact .cons (hat.meets hat') (ih hrest)

/-- What may be written for a command: its present spelling or the one that it has kept. A close is
always written as `z`. -/
def Spells (spaced : Bool) (command : Command) (text : List Char) : Prop :=
  if command.kind = .close then text = ['z']
  else text = command.text spaced ∨ command.absoluteText = some text

instance (spaced : Bool) (command : Command) (text : List Char) :
    Decidable (Spells spaced command text) := by
  unfold Spells
  infer_instance

lemma exists_of_spells {good : Command → Prop} {spaced : Bool} {place : Place} {command : Command}
    {text : List Char} (hstop : Stop good spaced place command) (h : Spells spaced command text) :
    ∃ origin : Command, text = origin.text spaced ∧ origin.Proper ∧
      place.step origin = place.step command ∧ (command.kind = .move → origin.kind = .move) := by
  rw [Spells] at h
  split at h
  · next hclose =>
    refine ⟨.closing, h, by decide, ?_, fun hk => ?_⟩
    · rw [step_of_close rfl, step_of_close hclose]
    · rw [hclose] at hk
      cases hk
  · next hclose =>
    rcases h with rfl | hkept
    · exact ⟨command, rfl, hstop.proper, rfl, id⟩
    · obtain ⟨origin, horigin⟩ := hstop.kept hclose text hkept
      exact ⟨origin, horigin.text, horigin.proper, horigin.step, horigin.move⟩

lemma exists_origins {good : Command → Prop} {spaced : Bool} {place : Place} {commands : List Command}
    {texts : List (List Char)} (hroute : Route good spaced place commands)
    (h : List.Forall₂ (Spells spaced) commands texts) :
    ∃ origins : List Command, texts.flatten = origins.flatMap (Command.text spaced) ∧
      (∀ o ∈ origins, o.Proper) ∧ place.trail origins = place.trail commands ∧
      (BeginsWithMove commands → BeginsWithMove origins) := by
  induction h generalizing place with
  | nil => exact ⟨[], rfl, by simp, rfl, id⟩
  | @cons command text commands texts hspells _ ih =>
    obtain ⟨origin, rfl, hproper, hstep, hmove⟩ := exists_of_spells hroute.1 hspells
    obtain ⟨origins, htexts, hall, htrail, -⟩ := ih hroute.2
    refine ⟨origin :: origins, ?_, List.forall_mem_cons.mpr ⟨hproper, hall⟩, ?_, fun hhead => ?_⟩
    · rw [List.flatten_cons, List.flatMap_cons, htexts]
    · rw [Place.trail, Place.trail, hstep, htrail]
    · exact beginsWithMove_cons (hmove (hhead command rfl)) _

lemma plotted_of_near {commands : List Command} (hproper : ∀ c ∈ commands, c.Proper)
    (hinteger : ∀ c ∈ commands, c.Integer)
    (hnear : ∀ f ∈ figures value {} commands, Near f.target) : Plotted {} commands := by
  obtain ⟨-, -, hpoints⟩ := figures_integral hproper hinteger integral_origin
  exact ⟨hproper, hinteger, fun f hf =>
    onGrid_of_integral (hpoints f hf _ (target_mem_points f)) (hnear f hf)⟩

/-- The choice of spellings never moves the pen. -/
theorem trace_of_spells {spaced : Bool} (strict : Bool) {commands : List Command}
    {texts : List (List Char)} (hhead : BeginsWithMove commands) (hproper : ∀ c ∈ commands, c.Proper)
    (hinteger : ∀ c ∈ commands, c.Integer)
    (hnear : ∀ f ∈ figures value {} commands, Near f.target)
    (htexts : List.Forall₂ (Spells spaced) (simplify (toRelative spaced commands)) texts) :
    ∃ parsed, parse strict texts.flatten = .ok parsed ∧
      List.Forall₂ Cursor.Meets (Cursor.trace {} parsed)
        (Cursor.trace {} (simplify (toRelative spaced commands))) := by
  have hfollows : Follows (fun _ => True) spaced {} commands (toRelative spaced commands) :=
    follows_toRelative (plotted_of_near hproper hinteger hnear) fun _ _ => trivial
  obtain ⟨hroute, -⟩ := route_simplify onGrid_origin hfollows.route
  obtain ⟨origins, htext, horigins, htrail, hmove⟩ := exists_origins hroute htexts
  have hparse := parse_texts strict spaced
    (hmove (beginsWithMove_simplify (beginsWithMove_toRelative hhead))) horigins
  have hreread : ∀ c ∈ origins.map Command.reread, c.Proper := by
    intro c hc
    obtain ⟨origin, horigin, rfl⟩ := List.mem_map.mp hc
    refine ⟨Command.length_reread (horigins origin horigin).1, fun x hx => ?_⟩
    obtain ⟨y, hy, rfl⟩ := List.mem_map.mp hx
    exact isFinite_reread ((horigins origin horigin).2 y hy)
  have hsame : Place.trail {} (origins.map Command.reread) =
      Place.trail {} (simplify (toRelative spaced commands)) := by
    rw [trail_reread horigins, htrail]
  refine ⟨_, htext ▸ hparse, ?_⟩
  have hparsed := trace_at cursor_at_origin hreread (hsame.symm ▸ hroute.trail)
  rw [hsame] at hparsed
  exact forall₂_meets hparsed (trace_at cursor_at_origin hroute.proper hroute.trail)

namespace Example

def mixed : List Command :=
  let n := Binary64.ofInt
  [ { letter := ⟨.move, true⟩, operands := [n 1000, n 1000] },
    { letter := ⟨.cubic, true⟩, operands := [n 1001, n 1000, n 1005, n 1000, n 1005, n 1000] },
    { letter := ⟨.smoothCubic, true⟩, operands := [n 5, n 5, n 0, n 0] },
    { letter := ⟨.horizontal, false⟩, operands := [n 4] },
    { letter := ⟨.horizontal, true⟩, operands := [n 9] },
    { letter := ⟨.close, true⟩, operands := [] },
    { letter := ⟨.line, true⟩, operands := [n 7, n 7] } ]

def mixedTexts : List (List Char) :=
  ["M1000 1000", "C1001 1000 1005 1000 1005 1000", "s-1000-995-1005-1000", "h9", "z", "L7 7"].map
    String.toList

end Example

theorem trace_of_spells_mixed : ∃ parsed, parse true Example.mixedTexts.flatten = .ok parsed ∧
    List.Forall₂ Cursor.Meets (Cursor.trace {} parsed)
      (Cursor.trace {} (simplify (toRelative false Example.mixed))) := by
  have hhead : BeginsWithMove Example.mixed := beginsWithMove_cons rfl _
  have hproper : ∀ c ∈ Example.mixed, c.Proper := by decide +kernel
  have hinteger : ∀ c ∈ Example.mixed, c.Integer :=
    Example.integer_of_ofInt [1000, 1001, 1005, 5, 0, 4, 9, 7] (by decide) (by decide +kernel)
  have hnear : ∀ f ∈ figures value {} Example.mixed, Near f.target := by decide +kernel
  have htexts : List.Forall₂ (Spells false) (simplify (toRelative false Example.mixed))
      Example.mixedTexts := by decide +kernel
  exact trace_of_spells true hhead hproper hinteger hnear htexts

namespace Example

def beyond : List Command :=
  let n := Binary64.ofInt
  [ { letter := ⟨.move, true⟩, operands := [n 9007199254740991, n 0] },
    { letter := ⟨.line, false⟩, operands := [n 9007199254740991, n 0] },
    { letter := ⟨.line, true⟩, operands := [n 1, n 0] } ]

def beyondTexts : List (List Char) :=
  ["M9007199254740991 0", "l9007199254740991 0", "L1 0"].map String.toList

end Example

/-- Integer operands alone are not enough: counted from a pen that has been rounded, the end is another
one than that of the kept spelling. -/
theorem not_trace_of_spells : BeginsWithMove Example.beyond ∧ (∀ c ∈ Example.beyond, c.Proper) ∧
    (∀ c ∈ Example.beyond, c.Integer) ∧
    List.Forall₂ (Spells false) (simplify (toRelative false Example.beyond)) Example.beyondTexts ∧
    (parse true Example.beyondTexts.flatten).toOption = some Example.beyond ∧
    (Cursor.trace {} Example.beyond).map (fun cursor => cursor.x.value) =
      [9007199254740991, 18014398509481982, 1] ∧
    (Cursor.trace {} (simplify (toRelative false Example.beyond))).map (fun cursor => cursor.x.value) =
      [9007199254740991, 18014398509481982, 2] ∧
    ¬ List.Forall₂ Cursor.Meets (Cursor.trace {} Example.beyond)
      (Cursor.trace {} (simplify (toRelative false Example.beyond))) := by
  refine ⟨beginsWithMove_cons rfl _, by decide +kernel, ?_, by decide +kernel, by decide +kernel,
    by decide +kernel, by decide +kernel, by decide +kernel⟩
  exact Example.integer_of_ofInt [9007199254740991, 0, 1] (by decide) (by decide +kernel)

end TersePath
