import TersePath.Run.Registry
import Mathlib.Data.List.Induction
import Mathlib.Data.List.Sort

/-! The order of the passes of a registry, and runs in that order. Registrations never give an id twice, so
that stage and id order the passes in one way only. The order is valid when every dependency stands before
the pass that needs it, and then a run meets each pass with its dependencies completed. -/

namespace TersePath

namespace Pass

def Before (a b : Pass) : Prop :=
  a.stage.number < b.stage.number ∨ a.stage.number = b.stage.number ∧ a.id < b.id

instance (a b : Pass) : Decidable (a.Before b) := inferInstanceAs (Decidable (_ ∨ _))

/-- A pass that leaves the records of the run alone, whether it fails or not. -/
def Discreet (pass : Pass) : Prop :=
  ∀ run, (pass.apply run).1.completed = run.completed ∧ (pass.apply run).1.faults = run.faults

section Before

variable {a b : Pass}

lemma Before.asymm (h : a.Before b) : ¬ b.Before a := by
  rintro (hlt | ⟨heq, hid⟩)
  · rcases h with h | ⟨h, -⟩ <;> omega
  · rcases h with h | ⟨-, h⟩
    · omega
    · exact String.lt_asymm h hid

lemma before_of_atMost (h : atMost a b = true) (hne : a.id ≠ b.id) : a.Before b := by
  simp only [Pass.atMost, Bool.or_eq_true, Bool.and_eq_true, decide_eq_true_eq] at h
  rcases h with h | ⟨h, hid⟩
  · exact Or.inl h
  · exact Or.inr ⟨h, String.not_le.mp fun hle => hne (String.le_antisymm hid hle)⟩

lemma atMost_trans (a b c : Pass) (hab : atMost a b = true) (hbc : atMost b c = true) :
    atMost a c = true := by
  simp only [Pass.atMost, Bool.or_eq_true, Bool.and_eq_true, decide_eq_true_eq] at hab hbc ⊢
  rcases hab with hab | ⟨hab, hid⟩
  · rcases hbc with hbc | ⟨hbc, -⟩ <;> exact Or.inl (by omega)
  · rcases hbc with hbc | ⟨hbc, hid'⟩
    · exact Or.inl (by omega)
    · exact Or.inr ⟨hab.trans hbc, String.le_trans hid hid'⟩

lemma atMost_total (a b : Pass) : (atMost a b || atMost b a) = true := by
  simp only [Pass.atMost, Bool.or_eq_true, Bool.and_eq_true, decide_eq_true_eq]
  rcases lt_trichotomy a.stage.number b.stage.number with h | h | h
  · exact Or.inl (Or.inl h)
  · rcases String.le_total a.id b.id with hid | hid
    · exact Or.inl (Or.inr ⟨h, hid⟩)
    · exact Or.inr (Or.inr ⟨h.symm, hid⟩)
  · exact Or.inr (Or.inl h)

end Before

end Pass

namespace Registry

def ids (registry : Registry) : List String := registry.passes.map Pass.id

/-- A registration that is refused leaves the registry as it is. -/
def offer (registry : Registry) (pass : Pass) : Registry :=
  match registry.register pass with
  | .ok grown => grown
  | .error _ => registry

/-- The registry after registrations one after another, some of which may be refused. -/
def ofCalls (calls : List Pass) : Registry := calls.foldl offer {}

/-- Every dependency is a registered pass that comes before the pass that needs it. -/
def Orderly (registry : Registry) : Prop :=
  ∀ pass ∈ registry.passes, ∀ id ∈ pass.dependencies,
    ∃ dependency ∈ registry.passes, dependency.id = id ∧ dependency.Before pass

/-- Every dependency is among the ids given or belongs to an earlier pass of the list. -/
def Ready (before : List String) : List Pass → Prop
  | [] => True
  | pass :: rest => (∀ id ∈ pass.dependencies, id ∈ before) ∧ Ready (before ++ [pass.id]) rest

section Registration

variable {registry other : Registry} {pass : Pass}

lemma isSome_find?_iff {id : String} : (registry.find? id).isSome = true ↔ id ∈ registry.ids := by
  simp [find?, ids]

lemma isNone_find?_iff {id : String} : (registry.find? id).isNone = true ↔ id ∉ registry.ids := by
  rw [← isSome_find?_iff, Bool.not_eq_true, Option.isSome_eq_false_iff]

lemma register_eq (registry : Registry) (pass : Pass) : registry.register pass =
    if pass.id ∈ registry.ids then .error (.duplicatePass pass.id)
    else .ok ⟨registry.passes ++ [pass]⟩ := by
  simp only [register, isSome_find?_iff]

lemma passes_offer (registry : Registry) (pass : Pass) : (registry.offer pass).passes =
    if pass.id ∈ registry.ids then registry.passes else registry.passes ++ [pass] := by
  rw [offer, register_eq]
  by_cases h : pass.id ∈ registry.ids
  · rw [if_pos h, if_pos h]
  · rw [if_neg h, if_neg h]

lemma nodup_offer (h : registry.ids.Nodup) : (registry.offer pass).ids.Nodup := by
  rw [ids, passes_offer]
  split
  · exact h
  · next hnew =>
    rw [List.map_append, List.nodup_append]
    refine ⟨h, by simp, ?_⟩
    rintro a ha b hb rfl
    obtain rfl : a = pass.id := by simpa using hb
    exact hnew ha

lemma ofCalls_concat (calls : List Pass) (pass : Pass) :
    ofCalls (calls ++ [pass]) = (ofCalls calls).offer pass := by
  rw [ofCalls, List.foldl_concat, ofCalls]

lemma nodup_ofCalls (calls : List Pass) : (ofCalls calls).ids.Nodup := by
  induction calls using List.reverseRecOn with
  | nil => exact List.nodup_nil
  | append_singleton calls pass ih => exact ofCalls_concat calls pass ▸ nodup_offer ih

lemma passes_ofCalls {calls : List Pass} (h : (calls.map Pass.id).Nodup) :
    (ofCalls calls).passes = calls := by
  induction calls using List.reverseRecOn with
  | nil => rfl
  | append_singleton calls pass ih =>
    rw [List.map_append, List.nodup_append] at h
    obtain ⟨hcalls, -, hnew⟩ := h
    have hids : (ofCalls calls).ids = calls.map Pass.id := congrArg (List.map Pass.id) (ih hcalls)
    have hfree : pass.id ∉ (ofCalls calls).ids := fun hmem =>
      hnew _ (hids ▸ hmem) pass.id (by simp) rfl
    rw [ofCalls_concat, passes_offer, if_neg hfree, ih hcalls]

end Registration

section Check

variable {registry : Registry} {before : List String}

lemma checkDependencies_ok_iff {pass : Pass} {dependencies : List String}
    (hknown : ∀ id ∈ before, id ∈ registry.ids) :
    registry.checkDependencies before pass dependencies = .ok () ↔ ∀ id ∈ dependencies, id ∈ before := by
  induction dependencies with
  | nil => simp [checkDependencies]
  | cons id rest ih =>
    rw [checkDependencies, List.forall_mem_cons]
    split
    · next hunknown =>
      have hnot : id ∉ before := fun hmem => isNone_find?_iff.mp hunknown (hknown id hmem)
      simp [hnot]
    · split
      · next hlate =>
        have hnot : id ∉ before := by simpa using hlate
        simp [hnot]
      · next hearly =>
        have hmem : id ∈ before := by simpa using hearly
        simp [hmem, ih]

lemma checkOrder_ok_iff {passes : List Pass}
    (hknown : ∀ id ∈ before ++ passes.map Pass.id, id ∈ registry.ids) :
    registry.checkOrder before passes = .ok () ↔ Ready before passes := by
  induction passes generalizing before with
  | nil => simp [checkOrder, Ready]
  | cons pass rest ih =>
    have hbefore : ∀ id ∈ before, id ∈ registry.ids := fun id h =>
      hknown id (List.mem_append_left _ h)
    have hrest : registry.checkOrder (before ++ [pass.id]) rest = .ok () ↔
        Ready (before ++ [pass.id]) rest := ih (by simpa [or_assoc] using hknown)
    have hpass : registry.checkDependencies before pass pass.dependencies = .ok () ↔ _ :=
      checkDependencies_ok_iff hbefore
    rw [checkOrder, Ready, ← hpass, ← hrest]
    split
    · next hfault => simp [hfault]
    · next hfine => simp [hfine]

lemma ready_iff {done passes : List Pass} (h : (done ++ passes).Pairwise Pass.Before) :
    Ready (done.map Pass.id) passes ↔ ∀ pass ∈ passes, ∀ id ∈ pass.dependencies,
      ∃ dependency ∈ done ++ passes, dependency.id = id ∧ dependency.Before pass := by
  induction passes generalizing done with
  | nil => simp [Ready]
  | cons pass rest ih =>
    have hsplit : done ++ pass :: rest = (done ++ [pass]) ++ rest := by simp
    have hrest := ih (hsplit ▸ h)
    rw [List.map_append, List.map_singleton, ← hsplit] at hrest
    rw [Ready, List.forall_mem_cons, hrest]
    refine and_congr_left fun _ => forall₂_congr fun id _ => ?_
    obtain ⟨-, hlater, hdone⟩ := List.pairwise_append.mp h
    constructor
    · intro hmem
      obtain ⟨dependency, hdependency, rfl⟩ := List.mem_map.mp hmem
      exact ⟨dependency, List.mem_append_left _ hdependency, rfl,
        hdone _ hdependency _ List.mem_cons_self⟩
    · rintro ⟨dependency, hdependency, rfl, hbefore⟩
      rcases List.mem_append.mp hdependency with hdependency | hdependency
      · exact List.mem_map_of_mem hdependency
      · rcases List.mem_cons.mp hdependency with rfl | hdependency
        · exact absurd hbefore hbefore.asymm
        · exact absurd hbefore ((List.pairwise_cons.mp hlater).1 _ hdependency).asymm

end Check

section Order

variable {registry other : Registry} {passes : List Pass}

lemma pairwise_sorted (h : registry.ids.Nodup) :
    (registry.passes.mergeSort Pass.atMost).Pairwise Pass.Before := by
  have hids : ((registry.passes.mergeSort Pass.atMost).map Pass.id).Nodup :=
    ((List.mergeSort_perm _ _).map _).nodup_iff.mpr h
  exact (List.pairwise_mergeSort Pass.atMost_trans Pass.atMost_total _).imp₂
    (fun _ _ => Pass.before_of_atMost) (List.pairwise_map.mp hids)

lemma eq_of_pairwise_before {xs ys : List Pass} (hx : xs.Pairwise Pass.Before)
    (hy : ys.Pairwise Pass.Before) (h : xs.Perm ys) : xs = ys :=
  h.eq_of_pairwise (fun _ _ _ _ hab hba => absurd hba hab.asymm) hx hy

lemma order_eq_ok_iff : registry.order = .ok passes ↔
    passes = registry.passes.mergeSort Pass.atMost ∧ registry.checkOrder [] passes = .ok () := by
  rw [order]
  cases hcheck : registry.checkOrder [] (registry.passes.mergeSort Pass.atMost) with
  | error fault =>
    simp only [Except.map, reduceCtorEq, false_iff, not_and]
    rintro rfl
    simp [hcheck]
  | ok =>
    simp only [Except.map, Except.ok.injEq]
    constructor
    · rintro rfl
      exact ⟨rfl, hcheck⟩
    · exact fun h => h.1.symm

lemma checkOrder_sorted_iff (h : registry.ids.Nodup) :
    registry.checkOrder [] (registry.passes.mergeSort Pass.atMost) = .ok () ↔ registry.Orderly := by
  have hperm := List.mergeSort_perm registry.passes Pass.atMost
  rw [checkOrder_ok_iff fun id hid => (hperm.map Pass.id).mem_iff.mp hid]
  have hready := @ready_iff [] _ (pairwise_sorted h)
  simpa only [List.map_nil, List.nil_append, hperm.mem_iff, Orderly] using hready

lemma checkDependencies_congr (h : ∀ id, id ∈ registry.ids ↔ id ∈ other.ids) (before : List String)
    (pass : Pass) (dependencies : List String) :
    registry.checkDependencies before pass dependencies =
      other.checkDependencies before pass dependencies := by
  have hnone : ∀ id, (registry.find? id).isNone = (other.find? id).isNone := fun id => by
    rw [Bool.eq_iff_iff, isNone_find?_iff, isNone_find?_iff, h]
  induction dependencies with
  | nil => rfl
  | cons id rest ih => rw [checkDependencies, checkDependencies, hnone, ih]

lemma checkOrder_congr (h : ∀ id, id ∈ registry.ids ↔ id ∈ other.ids) (before : List String)
    (passes : List Pass) : registry.checkOrder before passes = other.checkOrder before passes := by
  induction passes generalizing before with
  | nil => rfl
  | cons pass rest ih => rw [checkOrder, checkOrder, checkDependencies_congr h, ih]

lemma order_congr (h : registry.ids.Nodup) (hperm : other.passes.Perm registry.passes) :
    other.order = registry.order := by
  have hother : other.ids.Nodup := (hperm.map Pass.id).nodup_iff.mpr h
  have hsorted : other.passes.mergeSort Pass.atMost = registry.passes.mergeSort Pass.atMost :=
    eq_of_pairwise_before (pairwise_sorted hother) (pairwise_sorted h)
      ((List.mergeSort_perm _ _).trans (hperm.trans (List.mergeSort_perm _ _).symm))
  rw [order, order, hsorted, checkOrder_congr fun id => (hperm.map Pass.id).mem_iff]

end Order

end Registry

section Run

variable {run last : Run} {passes : List Pass}

inductive Applied : Run → List Pass → Run → Prop
  | nil (run : Run) : Applied run [] run
  | cons {pass : Pass} {rest : List Pass} {run left last : Run}
      (ready : ∀ id ∈ pass.dependencies, id ∈ run.completed) (applied : pass.apply run = (left, none))
      (others : Applied { left with completed := left.completed ++ [pass.id] } rest last) :
      Applied run (pass :: rest) last

lemma Applied.records (h : Applied run passes last) (hdiscreet : ∀ pass ∈ passes, pass.Discreet) :
    last.completed = run.completed ++ passes.map Pass.id ∧ last.faults = run.faults := by
  induction h with
  | nil => simp
  | @cons pass rest run left last _ applied _ ih =>
    obtain ⟨hpass, hrest⟩ := List.forall_mem_cons.mp hdiscreet
    obtain ⟨hcompleted, hfaults⟩ := hpass run
    rw [applied] at hcompleted hfaults
    obtain ⟨hlast, hnone⟩ := ih hrest
    refine ⟨?_, hnone.trans hfaults⟩
    rw [hlast, hcompleted, List.map_cons, List.append_assoc, List.singleton_append]

/-- How passes end that run in turn: all of them well, or at the first one that fails. What the passes after
that one would do makes no difference. -/
inductive Ends (run : Run) : List Pass → Outcome → Prop
  | finished {passes : List Pass} {last : Run} (applied : Applied run passes last)
      (completed : last.completed = passes.map Pass.id) (faults : last.faults = []) :
      Ends run passes (last, none)
  | stopped {done : List Pass} {pass : Pass} {reached left : Run} {fault : Fault}
      (applied : Applied run done reached) (ready : ∀ id ∈ pass.dependencies, id ∈ reached.completed)
      (fails : pass.apply reached = (left, some fault))
      (completed : left.completed = done.map Pass.id) (later : List Pass) :
      Ends run (done ++ pass :: later)
        ({ left with faults := [(pass.id, fault)] }.report [.failed pass.id fault], some fault)

lemma exists_applied (hready : Registry.Ready run.completed passes)
    (hdiscreet : ∀ pass ∈ passes, pass.Discreet) :
    (∃ last, Applied run passes last ∧ Registry.runPasses passes run = (last, none)) ∨
    ∃ done pass later reached left fault, passes = done ++ pass :: later ∧ Applied run done reached ∧
      (∀ id ∈ pass.dependencies, id ∈ reached.completed) ∧ pass.apply reached = (left, some fault) ∧
      Registry.runPasses passes run =
        ({ left with faults := left.faults ++ [(pass.id, fault)] }.report [.failed pass.id fault],
          some fault) := by
  induction passes generalizing run with
  | nil => exact Or.inl ⟨run, .nil run, rfl⟩
  | cons pass rest ih =>
    obtain ⟨hdependencies, hrest⟩ := hready
    obtain ⟨hpass, hothers⟩ := List.forall_mem_cons.mp hdiscreet
    rcases happly : pass.apply run with ⟨left, _ | fault⟩
    · have hcompleted : left.completed = run.completed := by
        simpa only [happly] using (hpass run).1
      rw [← hcompleted] at hrest
      have hstep : Registry.runPasses (pass :: rest) run =
          Registry.runPasses rest { left with completed := left.completed ++ [pass.id] } := by
        rw [Registry.runPasses, happly]
      rw [hstep]
      rcases @ih { left with completed := left.completed ++ [pass.id] } hrest hothers with
        ⟨last, hlast, hrun⟩ | ⟨done, stop, later, reached, stopped, fault, rfl, hdone, hstop⟩
      · exact Or.inl ⟨last, .cons hdependencies happly hlast, hrun⟩
      · exact Or.inr ⟨pass :: done, stop, later, reached, stopped, fault, rfl,
          .cons hdependencies happly hdone, hstop⟩
    · refine Or.inr ⟨[], pass, rest, run, left, fault, rfl, .nil run, hdependencies, happly, ?_⟩
      rw [Registry.runPasses, happly]

lemma ends_runPasses (hcompleted : run.completed = []) (hfaults : run.faults = [])
    (hready : Registry.Ready [] passes) (hdiscreet : ∀ pass ∈ passes, pass.Discreet) :
    Ends run passes (Registry.runPasses passes run) := by
  rw [← hcompleted] at hready
  rcases exists_applied hready hdiscreet with
    ⟨last, happlied, hrun⟩ | ⟨done, pass, later, reached, left, fault, rfl, happlied, hstop, hfails, hrun⟩
  · obtain ⟨hlast, hnone⟩ := happlied.records hdiscreet
    rw [hrun]
    exact .finished happlied (by rw [hlast, hcompleted, List.nil_append]) (hnone.trans hfaults)
  · obtain ⟨hdone, hpass⟩ := List.forall_mem_append.mp hdiscreet
    obtain ⟨hreached, hnone⟩ := happlied.records hdone
    obtain ⟨hleft, hleftFaults⟩ := hpass pass List.mem_cons_self reached
    rw [hfails] at hleft hleftFaults
    have hempty : left.faults = [] := hleftFaults.trans (hnone.trans hfaults)
    rw [hrun, hempty, List.nil_append]
    refine .stopped happlied hstop hfails ?_ later
    rw [hleft, hreached, hcompleted, List.nil_append]

end Run

namespace Registry

/-- Whatever is registered in whatever order: an id is taken once; there is a valid order exactly when every
dependency comes before its pass by stage and id; that order is the one by stage and id; and runs follow
it up to the first pass that fails. Without a valid order no pass runs. -/
theorem run_ofCalls (calls : List Pass) :
    (∀ pass, (ofCalls calls).register pass =
      if pass.id ∈ (ofCalls calls).ids then .error (.duplicatePass pass.id)
      else .ok ⟨(ofCalls calls).passes ++ [pass]⟩) ∧
    ((calls.map Pass.id).Nodup → (ofCalls calls).passes = calls) ∧
    ((∃ passes, (ofCalls calls).order = .ok passes) ↔ (ofCalls calls).Orderly) ∧
    (∀ others, (ofCalls others).passes.Perm (ofCalls calls).passes →
      (ofCalls others).order = (ofCalls calls).order) ∧
    (∀ passes, (ofCalls calls).order = .ok passes →
      passes.Perm (ofCalls calls).passes ∧ passes.Pairwise Pass.Before ∧
      ∀ run : Run, run.completed = [] → run.faults = [] →
        (∀ pass ∈ (ofCalls calls).passes, pass.Discreet) →
        Ends (run.report [.queued passes.length]) passes ((ofCalls calls).run run)) ∧
    ∀ run fault, (ofCalls calls).order = .error fault → (ofCalls calls).run run = (run, some fault) := by
  have hnodup := nodup_ofCalls calls
  refine ⟨register_eq _, passes_ofCalls, ?_, fun others => order_congr hnodup,
    fun passes horder => ?_, fun run fault horder => ?_⟩
  · rw [← checkOrder_sorted_iff hnodup]
    simp only [order_eq_ok_iff, exists_eq_left]
  · obtain ⟨rfl, hcheck⟩ := order_eq_ok_iff.mp horder
    have hperm := List.mergeSort_perm (ofCalls calls).passes Pass.atMost
    refine ⟨hperm, pairwise_sorted hnodup, fun run hcompleted hfaults hdiscreet => ?_⟩
    have hready : Ready [] ((ofCalls calls).passes.mergeSort Pass.atMost) :=
      (checkOrder_ok_iff fun id hid => (hperm.map Pass.id).mem_iff.mp hid).mp hcheck
    rw [Registry.run, horder]
    exact ends_runPasses hcompleted hfaults hready fun pass hpass =>
      hdiscreet pass (hperm.mem_iff.mp hpass)
  · rw [Registry.run, horder]

end Registry

namespace Example

def signing (id : String) (stage : Stage) (dependencies : List String) : Pass where
  id := id
  stage := stage
  dependencies := dependencies
  description := "Writes its id"
  apply run := ({ run with output := run.output ++ id.toList }, none)

def failing (id : String) (stage : Stage) (dependencies : List String) : Pass where
  id := id
  stage := stage
  dependencies := dependencies
  description := "Writes its id and fails"
  apply run := ({ run with output := run.output ++ id.toList }, some .noLeast)

def early : Pass := signing "b" .tokenize []

def middle : Pass := failing "a" .scale ["b"]

def late : Pass := signing "c" .scale ["a", "b"]

def shuffled : List Pass := [late, middle, signing "c" .normalize ["d"], early]

end Example

theorem Registry.run_ofCalls_shuffled :
    (Registry.ofCalls Example.shuffled).order = .ok [Example.early, Example.middle, Example.late] ∧
    Ends (Run.report {} [.queued 3]) [Example.early, Example.middle, Example.late]
      ((Registry.ofCalls Example.shuffled).run {}) := by
  have hpasses : (Registry.ofCalls Example.shuffled).passes =
      [Example.late, Example.middle, Example.early] := rfl
  have horder : (Registry.ofCalls Example.shuffled).order =
      .ok [Example.early, Example.middle, Example.late] := by
    refine Registry.order_eq_ok_iff.mpr ⟨?_, rfl⟩
    have hsorted := List.mergeSort_perm (Registry.ofCalls Example.shuffled).passes Pass.atMost
    refine Registry.eq_of_pairwise_before (by decide) (Registry.pairwise_sorted (by decide)) ?_
    exact (List.reverse_perm [Example.late, Example.middle, Example.early]).trans hsorted.symm
  have hdiscreet : ∀ pass ∈ (Registry.ofCalls Example.shuffled).passes, pass.Discreet := by
    rw [hpasses]
    simp only [List.forall_mem_cons]
    exact ⟨fun _ => ⟨rfl, rfl⟩, fun _ => ⟨rfl, rfl⟩, fun _ => ⟨rfl, rfl⟩, by simp⟩
  obtain ⟨-, -, -, -, hruns, -⟩ := Registry.run_ofCalls Example.shuffled
  exact ⟨horder, (hruns _ horder).2.2 {} rfl rfl hdiscreet⟩

end TersePath
