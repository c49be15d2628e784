import Preopt.CommandLine.Arguments

/-! Options in front of a command. An option whose value is spelled behind an equals sign is taken
up at once, whatever the value holds, so any choice of options with any values can be given. -/

namespace Preopt.CommandLine

def spelled (choice : Opt × String) : String := "--" ++ choice.1.name ++ "=" ++ choice.2

theorem toList_spelled (choice : Opt × String) :
    (spelled choice).toList = '-' :: '-' :: (choice.1.name.toList ++ '=' :: choice.2.toList) := by
  simp [spelled]

theorem find?_options {o : Opt} (ho : o ∈ Level.program.options) :
    Level.program.options.find? (·.name = o.name) = some o := by
  revert ho
  cases o <;> decide +kernel

theorem find?_verbs_spelled (choice : Opt × String) :
    Level.program.verbs.find? (·.name = spelled choice) = none := by
  rw [List.find?_eq_none]
  intro v _ hv
  have hlead : v.name.toList.head? ≠ some '-' := by
    cases v <;> decide +kernel
  have hlists := congrArg String.toList (of_decide_eq_true hv)
  rw [toList_spelled] at hlists
  exact hlead (congrArg List.head? hlists)

theorem find?_verbs (v : Verb) : Level.program.verbs.find? (·.name = v.name) = some v := by
  cases v <;> decide +kernel

variable {g : Given}

theorem Given.accept_eq {o : Opt} (value : String) (hnew : g.value? o = none)
    (ho : o ∈ Level.program.options) :
    g.accept o value = .ok { g with values := g.values ++ [(o, value)] } := by
  have hvariant : o ≠ .variant := by
    rintro rfl
    revert ho
    decide
  rw [accept, hnew, if_neg (by simp), if_neg fun h => hvariant h.1]
  rfl

theorem Given.long_spelled {o : Opt} (value : String) (hpending : g.pending = none)
    (hnew : g.value? o = none) (ho : o ∈ Level.program.options) :
    g.long .program (o.name.toList ++ '=' :: value.toList) =
      .ok { g with values := g.values ++ [(o, value)] } := by
  have hname : o.name.toList.all (· ≠ '=') = true := by
    cases o <;> decide +kernel
  rw [List.all_eq_true] at hname
  have htake : (o.name.toList ++ '=' :: value.toList).takeWhile (· ≠ '=') = o.name.toList := by
    rw [List.takeWhile_append_of_pos hname]
    simp
  have hdrop : (o.name.toList ++ '=' :: value.toList).dropWhile (· ≠ '=') =
      '=' :: value.toList := by
    rw [List.dropWhile_append_of_pos hname]
    simp
  have hsettle : g.settle = .ok g := by
    rw [settle, hpending]
    rfl
  simp only [long, htake, hdrop, String.ofList_toList, find?_options ho, List.tail?_cons,
    Option.map_some, hsettle]
  exact g.accept_eq value hnew ho

theorem Given.awaitsValue_eq_false (hpending : g.pending = none) : g.awaitsValue = false := by
  rw [awaitsValue, hpending]
  rfl

theorem readArguments_verb (hpending : g.pending = none) (v : Verb) (extra : List String) :
    readArguments .program g (v.name :: extra) = .ok (g, some (v, extra)) := by
  rw [readArguments.eq_def]
  simp only [g.awaitsValue_eq_false hpending, Bool.false_eq_true, if_false, find?_verbs]
  rfl

theorem readArguments_option {o : Opt} (value : String) (hpending : g.pending = none)
    (hnew : g.value? o = none) (ho : o ∈ Level.program.options) (rest : List String) :
    readArguments .program g (spelled (o, value) :: rest) =
      readArguments .program { g with values := g.values ++ [(o, value)] } rest := by
  have hlong := Given.long_spelled value hpending hnew ho
  -- two dashes with nothing behind them would end the options
  obtain ⟨c, cs, hcs⟩ : ∃ c cs, o.name.toList ++ '=' :: value.toList = c :: cs :=
    List.exists_cons_of_ne_nil (by simp)
  rw [hcs] at hlong
  rw [readArguments.eq_def]
  simp only [g.awaitsValue_eq_false hpending, Bool.false_eq_true, if_false, find?_verbs_spelled,
    toList_spelled, hcs, hlong]
  rfl

/-- One option at a time, behind those that were read before. -/
theorem readArguments_spelled (choices : List (Opt × String)) (hpending : g.pending = none)
    (hnodup : ((g.values ++ choices).map Prod.fst).Nodup)
    (hchoices : ∀ choice ∈ choices, choice.1 ∈ Level.program.options) (v : Verb)
    (extra : List String) :
    readArguments .program g (choices.map spelled ++ v.name :: extra) =
      .ok ({ g with values := g.values ++ choices }, some (v, extra)) := by
  induction choices generalizing g with
  | nil =>
    rw [List.append_nil]
    exact readArguments_verb hpending v extra
  | cons choice choices ih =>
    obtain ⟨o, value⟩ := choice
    obtain ⟨ho, hchoices⟩ := List.forall_mem_cons.mp hchoices
    have hnew : g.value? o = none := by
      rw [List.map_append, List.nodup_append] at hnodup
      refine List.lookup_eq_none_iff.mpr fun given hgiven => ?_
      have hne := hnodup.2.2 given.1 (List.mem_map_of_mem hgiven) o List.mem_cons_self
      exact bne_iff_ne.mpr hne.symm
    have hread := ih (g := { g with values := g.values ++ [(o, value)] }) hpending
      (by simpa using hnodup) hchoices
    rw [List.map_cons, List.cons_append, readArguments_option value hpending hnew ho, hread]
    simp

theorem parse_spelled (choices : List (Opt × String)) (hnodup : (choices.map Prod.fst).Nodup)
    (hchoices : ∀ choice ∈ choices, choice.1 ∈ Level.program.options) {v : Verb}
    {extra : List String} {c : Command} (hc : command v extra = .ok c) :
    parse (choices.map spelled ++ v.name :: extra) = .ok ({ values := choices }, c) := by
  have hread := readArguments_spelled (g := {}) choices rfl hnodup hchoices v extra
  simp only [parse, hread, hc, bind, Except.bind]
  rfl

end Preopt.CommandLine
