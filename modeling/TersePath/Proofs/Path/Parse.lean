import TersePath.Proofs.Path.Groups
import TersePath.Proofs.Path.Head

namespace TersePath

lemma mapM_ok_mono {α β : Type} {f g : α → Except PathFault β}
    (h : ∀ x y, f x = .ok y → g x = .ok y) {xs : List α} {ys : List β} (hxs : xs.mapM f = .ok ys) :
    xs.mapM g = .ok ys :=
  mapM_eq_ok_iff.mpr ((mapM_eq_ok_iff.mp hxs).imp h)

lemma exists_of_mem_mapM {α β : Type} {f : α → Except PathFault β} {xs : List α} {ys : List β}
    (h : xs.mapM f = .ok ys) : ∀ y ∈ ys, ∃ x, f x = .ok y := by
  rw [mapM_eq_ok_iff] at h
  induction h with
  | nil => simp
  | cons hx _ ih => exact List.forall_mem_cons.mpr ⟨⟨_, hx⟩, ih⟩

lemma readField_lenient {strict : Bool} {field : List Char} {x : Binary64}
    (h : readField strict field = .ok x) : readField false field = .ok x := by
  simp only [readField] at h ⊢
  split at h
  · cases h
  · next hstray =>
    rw [if_neg hstray]
    split at h
    · cases h
    · exact h

lemma readToken_lenient {strict : Bool} {word : List Char} {token : Token}
    (h : readToken strict word = .ok token) : readToken false word = .ok token := by
  rw [readToken] at h ⊢
  split at h
  · cases h
  · obtain ⟨values, hvalues, htoken⟩ := bind_eq_ok.mp h
    exact bind_eq_ok.mpr ⟨values, mapM_ok_mono (fun _ _ => readField_lenient) hvalues, htoken⟩

lemma tokenize_lenient {strict : Bool} {text : List Char} {tokens : List Token}
    (h : tokenize strict text = .ok tokens) : tokenize false text = .ok tokens := by
  rw [tokenize.eq_def] at h ⊢
  split at h
  · exact h
  · split at h
    · next hstart =>
      simp only [hstart, if_true]
      exact mapM_ok_mono (fun _ _ => readToken_lenient) h
    · cases h

theorem readPath_of_parse {strict : Bool} {text : List Char} {commands : List Command}
    (h : parse strict text = .ok commands) : readPath text = .ok commands := by
  obtain ⟨tokens, htokens, hcommands⟩ := bind_eq_ok.mp h
  exact bind_eq_ok.mpr ⟨tokens, tokenize_lenient htokens, hcommands⟩

def Command.Read (command : Command) : Prop := command.WellFormed ∧ command.Bare

lemma exists_of_commands {token : Token} {commands : List Command} (h : token.commands = .ok commands) :
    ∃ first rest, commands = first :: rest ∧ first.letter = token.letter ∧ ∀ c ∈ commands, c.Read := by
  obtain ⟨-, _, hfault⟩ | ⟨-, run, hrun, hshares⟩ := token.commands_cases
  · cases hfault.symm.trans h
  · obtain rfl : run = commands := Except.ok.inj (hrun.symm.trans h)
    have hread : ∀ c ∈ run, c.Read := fun c hc => ⟨hshares.wellFormed c hc, hshares.bare c hc⟩
    have hletters := hshares.letters
    cases run with
    | nil => cases hletters
    | cons first rest => exact ⟨first, rest, rfl, (List.cons.inj hletters).1, hread⟩

lemma read_of_commandsOf {tokens : List Token} {commands : List Command}
    (h : commandsOf tokens = .ok commands) : BeginsWithMove commands ∧ ∀ c ∈ commands, c.Read := by
  obtain ⟨lists, hlists, hlast⟩ := bind_eq_ok.mp h
  have hread : ∀ c ∈ lists.flatten, c.Read := by
    intro c hc
    obtain ⟨list, hlist, hc⟩ := List.mem_flatten.mp hc
    obtain ⟨token, htoken⟩ := exists_of_mem_mapM hlists list hlist
    obtain ⟨_, _, -, -, hread⟩ := exists_of_commands htoken
    exact hread c hc
  rw [mapM_eq_ok_iff] at hlists
  cases hlists with
  | nil =>
    obtain rfl : [] = commands := Except.ok.inj hlast
    exact ⟨by simp [BeginsWithMove], by simp⟩
  | @cons token list tokens lists htoken _ =>
    dsimp only at hlast
    split at hlast
    · next hmove =>
      obtain rfl : (list :: lists).flatten = commands := Except.ok.inj hlast
      refine ⟨?_, hread⟩
      obtain ⟨first, rest, rfl, hletter, -⟩ := exists_of_commands htoken
      rw [List.flatten_cons, List.cons_append]
      refine beginsWithMove_cons ?_ _
      rw [Command.kind, hletter, hmove]
    · cases hlast

theorem read_of_parse {strict : Bool} {text : List Char} {commands : List Command}
    (h : parse strict text = .ok commands) :
    BeginsWithMove commands ∧ ∀ c ∈ commands, c.Read := by
  obtain ⟨tokens, -, hcommands⟩ := bind_eq_ok.mp h
  exact read_of_commandsOf hcommands

end TersePath
