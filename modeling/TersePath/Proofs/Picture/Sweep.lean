import TersePath.Proofs.Picture.Respell

/-! Sweeps that keep the picture. What an edit leaves of a command and the one before it has to show
the same as the two, and to leave the hand so that the next command does not notice. Kept spellings
have to stay true as well. -/

namespace TersePath

def Edit.outcome (previous : Option Command) (command : Command) : Edit → List Command
  | keep => previous.toList ++ [command]
  | replace other => previous.toList ++ [other]
  | drop => previous.toList
  | merge other => [other]

namespace Picture

open Mark (join joinAll)
open Hand (Agree Fits)

/-- Two pieces of a path that cannot be told apart by what is seen, nor by the command after them. -/
structure Same (hand : Hand) (xs ys : List Command) (next : Option Command) : Prop where
  seen : ∀ rest, joinAll (hand.sights xs).flatten rest = joinAll (hand.sights ys).flatten rest
  agree : Agree (hand.afterAll xs) (hand.afterAll ys) next

lemma Same.refl (hand : Hand) (xs : List Command) (next : Option Command) : Same hand xs xs next :=
  ⟨fun _ => rfl, Agree.refl _ _⟩

lemma Same.view {hand : Hand} {xs ys rest : List Command} (h : Same hand xs ys rest.head?) :
    hand.view (xs ++ rest) = hand.view (ys ++ rest) := by
  rw [Hand.view_append, Hand.view_append, h.seen, h.agree.view]

lemma sights_append (hand : Hand) (xs ys : List Command) :
    hand.sights (xs ++ ys) = hand.sights xs ++ (hand.afterAll xs).sights ys := by
  induction xs generalizing hand with
  | nil => rfl
  | cons command rest ih => simp [Hand.sights, ih]

lemma Same.append_left {hand : Hand} {front xs ys : List Command} {next : Option Command}
    (h : Same (hand.afterAll front) xs ys next) : Same hand (front ++ xs) (front ++ ys) next := by
  refine ⟨fun rest => ?_, ?_⟩
  · simp only [sights_append, List.flatten_append, joinAll_append, h.seen]
  · simpa only [Hand.afterAll_append] using h.agree

lemma same_replace {hand : Hand} {command other : Command} {next : Option Command}
    (hs : hand.sight other = hand.sight command)
    (ha : Agree (hand.after other) (hand.after command) next) : Same hand [other] [command] next :=
  ⟨fun _ => by simp [Hand.sights, hs], ha⟩

lemma same_drop {hand : Hand} {command : Command} {next : Option Command}
    (hs : hand.sight command = []) (ha : Agree hand (hand.after command) next) :
    Same hand [] [command] next :=
  ⟨fun _ => by simp [Hand.sights, hs], ha⟩

structure Sound (hand : Hand) (previous : Option Command) (command : Command)
    (next : Option Command) (edit : Edit) : Prop where
  same : Same hand (edit.outcome previous command) (previous.toList ++ [command]) next
  proper : ∀ c ∈ edit.outcome previous command, c.Proper
  keeps : ∀ spaced, KeepsAll spaced hand (previous.toList ++ [command]) →
    KeepsAll spaced hand (edit.outcome previous command)

lemma sound_keep {hand : Hand} {previous : Option Command} {command : Command}
    {next : Option Command} (hprevious : ∀ c ∈ previous, c.Proper) (hcommand : command.Proper) :
    Sound hand previous command next .keep := by
  refine ⟨Same.refl _ _ _, fun c hc => ?_, fun _ hkeeps => hkeeps⟩
  simp only [Edit.outcome, List.mem_append, Option.mem_toList, List.mem_singleton] at hc
  rcases hc with hc | rfl
  · exact hprevious c hc
  · exact hcommand

lemma sound_drop {hand : Hand} {previous : Option Command} {command : Command}
    {next : Option Command} (hprevious : ∀ c ∈ previous, c.Proper)
    (h : Same (hand.afterAll previous.toList) [] [command] next) :
    Sound hand previous command next .drop := by
  refine ⟨by simpa [Edit.outcome] using h.append_left, fun c hc => ?_,
    fun _ hkeeps => (keepsAll_append.mp hkeeps).1⟩
  exact hprevious c (Option.mem_toList.mp hc)

lemma sound_merge {hand : Hand} {previous : Option Command} {command other : Command}
    {next : Option Command} (h : Same hand [other] (previous.toList ++ [command]) next)
    (hother : other.Proper) (hbare : other.Bare) : Sound hand previous command next (.merge other) := by
  refine ⟨h, fun c hc => ?_, fun _ _ => ⟨keeps_of_bare hbare, trivial⟩⟩
  obtain rfl := List.mem_singleton.mp hc
  exact hother

/-- The places where an edit is asked for: a hand that has drawn nothing yet has no control point. -/
def EditSound (holds : Option Command → Command → Option Command → Prop)
    (edit : Option Command → Command → Option Command → Edit) : Prop :=
  ∀ hand : Hand, ∀ previous command next, (previous = none → hand.control = .none) →
    (∀ c ∈ previous, c.Proper) → command.Proper → holds previous command next →
    Sound hand previous command next (edit previous command next)

lemma sweep_cons (edit : Option Command → Command → Option Command → Edit)
    (previous : Option Command) (command : Command) (rest : List Command) :
    ∃ front, (edit previous command rest.head?).outcome previous command =
        front ++ ((edit previous command rest.head?).last previous command).toList ∧
      sweep edit previous (command :: rest) =
        front ++ sweep edit ((edit previous command rest.head?).last previous command) rest ∧
      ((edit previous command rest.head?).last previous command = none → front = [] ∧ previous = none)
      := by
  cases h : edit previous command rest.head? with
  | keep => exact ⟨previous.toList, by simp [Edit.outcome, Edit.last], by simp [sweep, h, Edit.last],
      by simp [Edit.last]⟩
  | replace other => exact ⟨previous.toList, by simp [Edit.outcome, Edit.last],
      by simp [sweep, h, Edit.last], by simp [Edit.last]⟩
  | drop => exact ⟨[], by simp [Edit.outcome, Edit.last], by simp [sweep, h, Edit.last],
      by simp [Edit.last]⟩
  | merge other => exact ⟨[], by simp [Edit.outcome, Edit.last], by simp [sweep, h, Edit.last],
      by simp [Edit.last]⟩

theorem view_sweep {holds : Option Command → Command → Option Command → Prop}
    {edit : Option Command → Command → Option Command → Edit} (hsound : EditSound holds edit)
    (hand : Hand) (previous : Option Command) (commands : List Command)
    (hhand : previous = none → hand.control = .none) (hprevious : ∀ c ∈ previous, c.Proper)
    (hcommands : ∀ c ∈ commands, c.Proper) (hholds : SweepAll holds edit previous commands) :
    hand.view (sweep edit previous commands) = hand.view (previous.toList ++ commands) ∧
      (∀ c ∈ sweep edit previous commands, c.Proper) ∧
      ∀ spaced, KeepsAll spaced hand (previous.toList ++ commands) →
        KeepsAll spaced hand (sweep edit previous commands) := by
  induction commands generalizing hand previous with
  | nil =>
    refine ⟨by simp [sweep], fun c hc => hprevious c ?_, fun _ hkeeps => by simpa [sweep] using hkeeps⟩
    simpa [sweep] using hc
  | cons command rest ih =>
    obtain ⟨hstep, hrest⟩ := hholds
    have hs := hsound hand previous command rest.head? hhand hprevious (hcommands command (by simp)) hstep
    obtain ⟨front, hout, hsweep, hnone⟩ := sweep_cons edit previous command rest
    have hmem : ∀ c ∈ front ++ ((edit previous command rest.head?).last previous command).toList,
        c.Proper := hout ▸ hs.proper
    obtain ⟨hview, hproper, hkeeps⟩ := ih (hand.afterAll front) _
      (fun hl => by
        obtain ⟨rfl, hp⟩ := hnone hl
        exact hhand hp)
      (fun c hc => hmem c (List.mem_append_right _ (Option.mem_toList.mpr hc)))
      (fun c hc => hcommands c (List.mem_cons_of_mem _ hc)) hrest
    refine ⟨?_, ?_, ?_⟩
    · calc hand.view (sweep edit previous (command :: rest))
          = hand.view ((edit previous command rest.head?).outcome previous command ++ rest) := by
            rw [hsweep, hout, Hand.view_append, hview, ← Hand.view_append, List.append_assoc]
        _ = hand.view (previous.toList ++ [command] ++ rest) := hs.same.view
        _ = hand.view (previous.toList ++ command :: rest) := by simp
    · intro c hc
      rw [hsweep, List.mem_append] at hc
      rcases hc with hc | hc
      · exact hmem c (List.mem_append_left _ hc)
      · exact hproper c hc
    · intro spaced hall
      rw [← List.singleton_append, ← List.append_assoc, keepsAll_append] at hall
      obtain ⟨hfirst, hothers⟩ := hall
      have houtcome := hs.keeps spaced hfirst
      have hjoined := keepsAll_append.mpr ⟨houtcome, hothers.congr hs.same.agree.symm⟩
      rw [hout, List.append_assoc, keepsAll_append] at hjoined
      rw [hsweep, keepsAll_append]
      exact ⟨hjoined.1, hkeeps spaced hjoined.2⟩

end Picture

end TersePath
