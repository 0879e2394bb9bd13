import TersePath.Proofs.Picture.Relative
import TersePath.Proofs.Picture.Sweep

/-! Routes of the pen. Along a route every command ends on the grid of small integers, and a kept
spelling leads to where its command leads, whatever it shows on the way. An edit that ends where the
commands before it ended keeps the route, and so does a whole sweep of such edits. -/

namespace TersePath

open Picture Binary64

namespace Picture

def Place.step (place : Place) (command : Command) : Place := place.after (figure value place command)

def Place.stepAll (place : Place) (commands : List Command) : Place := commands.foldl step place

def Place.OnGrid (place : Place) : Prop := Picture.OnGrid place.point ∧ Picture.OnGrid place.start

@[simp] lemma Place.stepAll_nil (place : Place) : place.stepAll [] = place := rfl

@[simp] lemma Place.stepAll_cons (place : Place) (command : Command) (rest : List Command) :
    place.stepAll (command :: rest) = (place.step command).stepAll rest := rfl

lemma Place.stepAll_append (place : Place) (xs ys : List Command) :
    place.stepAll (xs ++ ys) = (place.stepAll xs).stepAll ys := by
  simp [stepAll]

lemma toPlace_afterAll (hand : Hand) (commands : List Command) :
    (hand.afterAll commands).toPlace = hand.toPlace.stepAll commands := by
  induction commands generalizing hand with
  | nil => rfl
  | cons command rest ih => exact ih (hand.after command)

lemma Place.start_after (place : Place) (f : Figure) :
    (place.after f).start = place.start ∨ (place.after f).start = (place.after f).point := by
  cases f with
  | move p => exact Or.inr rfl
  | _ => exact Or.inl rfl

lemma Place.point_after (place : Place) (f : Figure) : (place.after f).point = f.target := by
  cases f <;> rfl

lemma Place.OnGrid.step {place : Place} (h : place.OnGrid) {command : Command}
    (hend : Picture.OnGrid (place.step command).point) : (place.step command).OnGrid := by
  refine ⟨hend, ?_⟩
  rcases place.start_after (figure value place command) with hstart | hstart
  · exact hstart ▸ h.2
  · exact hstart ▸ hend

lemma onGrid_origin : Place.OnGrid {} := ⟨⟨onAxis_zero, onAxis_zero⟩, onAxis_zero, onAxis_zero⟩

/-- What a kept spelling says, and that it leads to where its command leads. -/
structure Origin (good : Command → Prop) (spaced : Bool) (place : Place) (command : Command)
    (text : List Char) (origin : Command) : Prop where
  proper : origin.Proper
  bare : origin.Bare
  good : good origin
  text : text = origin.text spaced
  opened : origin.kind ≠ .close
  move : command.kind = .move → origin.kind = .move
  step : place.step origin = place.step command

/-- A command on a route. What its kept spelling says may have to be good for more than the pen. -/
structure Stop (good : Command → Prop) (spaced : Bool) (place : Place) (command : Command) : Prop where
  proper : command.Proper
  grid : OnGrid (place.step command).point
  kept : command.kind ≠ .close → ∀ text ∈ command.absoluteText, ∃ origin,
    Origin good spaced place command text origin

def Along (stop : Place → Command → Prop) (place : Place) : List Command → Prop
  | [] => True
  | command :: rest => stop place command ∧ Along stop (place.step command) rest

lemma along_append {stop : Place → Command → Prop} {place : Place} {xs ys : List Command} :
    Along stop place (xs ++ ys) ↔ Along stop place xs ∧ Along stop (place.stepAll xs) ys := by
  induction xs generalizing place with
  | nil => simp [Along]
  | cons command rest ih => rw [List.cons_append, Along, Along, ih, and_assoc, Place.stepAll_cons]

def Route (good : Command → Prop) (spaced : Bool) : Place → List Command → Prop :=
  Along (Stop good spaced)

section Route

variable {good : Command → Prop} {spaced : Bool} {place : Place} {commands : List Command}

lemma route_append {xs ys : List Command} : Route good spaced place (xs ++ ys) ↔
    Route good spaced place xs ∧ Route good spaced (place.stepAll xs) ys :=
  along_append

lemma Route.onGrid (h : Route good spaced place commands) (hgrid : place.OnGrid) :
    (place.stepAll commands).OnGrid := by
  induction commands generalizing place with
  | nil => exact hgrid
  | cons command rest ih => exact ih h.2 (hgrid.step h.1.grid)

lemma Route.proper (h : Route good spaced place commands) : ∀ c ∈ commands, c.Proper := by
  induction commands generalizing place with
  | nil => simp
  | cons command rest ih => exact List.forall_mem_cons.mpr ⟨h.1.proper, ih h.2⟩

lemma Stop.of_bare {command : Command} (hproper : command.Proper)
    (hgrid : OnGrid (place.step command).point) (hbare : command.absoluteText = none) :
    Stop good spaced place command := by
  refine ⟨hproper, hgrid, fun _ text htext => ?_⟩
  rw [hbare] at htext
  cases htext

end Route

end Picture

/-- Coordinates and radii from which a position on the grid can be taken. -/
def Command.OnGrid (command : Command) : Prop := ∀ x ∈ command.scaledOperands, OnAxis x.value

/-- A relative step may be as long as the way between two positions on the grid. -/
structure Command.Fit (command : Command) : Prop where
  integer : command.Integer
  grid : command.absolute = true → command.OnGrid

/-- A command that can be written and read again: no flag, and no second spelling of a close. -/
structure Command.Tidy (command : Command) : Prop where
  openEnd : command.closesSubpath = false
  fit : command.Fit
  close : command.kind = .close → command.absoluteText = none

namespace Picture

/-- What has to hold of an edit for the pen to go on as before. -/
structure Steady (good : Command → Prop) (spaced : Bool) (place : Place) (previous : Option Command) (command : Command)
    (edit : Edit) : Prop where
  ends : place.stepAll (edit.outcome previous command) = place.stepAll (previous.toList ++ [command])
  route : Route good spaced place (edit.outcome previous command)
  tidy : (∀ c ∈ previous.toList ++ [command], c.Tidy) → ∀ c ∈ edit.outcome previous command, c.Tidy

def EditSteady (edit : Option Command → Command → Option Command → Edit) : Prop :=
  ∀ good spaced place previous command next, place.OnGrid →
    Route good spaced place (previous.toList ++ [command]) →
    Steady good spaced place previous command (edit previous command next)

theorem route_sweep {edit : Option Command → Command → Option Command → Edit}
    (hsteady : EditSteady edit) {good : Command → Prop} {spaced : Bool} {place : Place}
    (previous : Option Command) {commands : List Command} (hgrid : place.OnGrid)
    (h : Route good spaced place (previous.toList ++ commands)) :
    Route good spaced place (sweep edit previous commands) ∧
      ((∀ c ∈ previous.toList ++ commands, c.Tidy) → ∀ c ∈ sweep edit previous commands, c.Tidy) := by
  induction commands generalizing place previous with
  | nil => simpa [sweep] using h
  | cons command rest ih =>
    rw [← List.singleton_append, ← List.append_assoc] at h ⊢
    obtain ⟨hfirst, hrest⟩ := route_append.mp h
    have hs := hsteady good spaced place previous command rest.head? hgrid hfirst
    obtain ⟨front, hout, hsweep, -⟩ := sweep_cons edit previous command rest
    have hjoined := route_append.mpr ⟨hs.route, hs.ends.symm ▸ hrest⟩
    rw [hout, List.append_assoc, route_append] at hjoined
    obtain ⟨hfront, hlater⟩ := hjoined
    obtain ⟨hroute, htidy⟩ := ih _ (hfront.onGrid hgrid) hlater
    rw [List.singleton_append, hsweep]
    refine ⟨route_append.mpr ⟨hfront, hroute⟩, fun hall => ?_⟩
    rw [List.forall_mem_append] at hall
    have houtcome := hs.tidy hall.1
    rw [hout, List.forall_mem_append] at houtcome
    exact List.forall_mem_append.mpr
      ⟨houtcome.1, htidy (List.forall_mem_append.mpr ⟨houtcome.2, hall.2⟩)⟩

section Edits

variable {good : Command → Prop} {spaced : Bool} {place : Place} {previous : Option Command} {command other : Command}

lemma steady_keep (h : Route good spaced place (previous.toList ++ [command])) :
    Steady good spaced place previous command .keep :=
  ⟨rfl, h, id⟩

lemma steady_drop (h : Route good spaced place (previous.toList ++ [command]))
    (hstep : (place.stepAll previous.toList).step command = place.stepAll previous.toList) :
    Steady good spaced place previous command .drop := by
  refine ⟨?_, (route_append.mp h).1, fun hall => (List.forall_mem_append.mp hall).1⟩
  rw [Edit.outcome, Place.stepAll_append, Place.stepAll_cons, hstep, Place.stepAll_nil]

lemma steady_replace {kind : Kind} {operands : List Binary64}
    (h : Route good spaced place (previous.toList ++ [command]))
    (hclose : command.kind ≠ .close) (hkind : kind ≠ .move ∧ kind ≠ .close)
    (hproper : (command.reshape kind operands).Proper)
    (hinteger : command.Integer → (command.reshape kind operands).Integer)
    (hstep : (place.stepAll previous.toList).step (command.reshape kind operands) =
      (place.stepAll previous.toList).step command) :
    Steady good spaced place previous command (.replace (command.reshape kind operands)) := by
  obtain ⟨hfront, hstop, -⟩ := route_append.mp h
  refine ⟨?_, route_append.mpr ⟨hfront, ⟨hproper, hstep ▸ hstop.grid, ?_⟩, trivial⟩, fun hall => ?_⟩
  · simp only [Edit.outcome, Place.stepAll_append, Place.stepAll_cons, hstep]
  · intro _ text htext
    obtain ⟨origin, horigin⟩ := hstop.kept hclose text htext
    exact ⟨origin, { horigin with
      move := fun hk => absurd hk hkind.1
      step := horigin.step.trans hstep.symm }⟩
  · obtain ⟨hbefore, hcommand⟩ := List.forall_mem_append.mp hall
    have htidy := hcommand command List.mem_cons_self
    refine List.forall_mem_append.mpr ⟨hbefore, fun c hc => ?_⟩
    obtain rfl := List.mem_singleton.mp hc
    refine ⟨htidy.openEnd, ⟨hinteger htidy.fit.integer, fun habsolute => ?_⟩,
      fun hk => absurd hk hkind.2⟩
    cases habsolute

lemma steady_merge (h : Route good spaced place (previous.toList ++ [command])) (hbare : other.Bare)
    (hproper : other.Proper)
    (hfit : (∀ c ∈ previous.toList ++ [command], c.Fit) → other.Fit)
    (hstep : place.step other = place.stepAll (previous.toList ++ [command])) :
    Steady good spaced place previous command (.merge other) := by
  have hgrid : OnGrid (place.step other).point := by
    obtain ⟨-, hstop, -⟩ := route_append.mp h
    rw [hstep, Place.stepAll_append]
    exact hstop.grid
  refine ⟨hstep, ⟨.of_bare hproper hgrid hbare.2, trivial⟩, fun hall c hc => ?_⟩
  obtain rfl := List.mem_singleton.mp hc
  exact ⟨hbare.1, hfit fun c hc => (hall c hc).fit, fun _ => hbare.2⟩

end Edits

end Picture

end TersePath
