import PathFilter.CommandLine.Source

/-!
# How a command line is spelt

The grammar of command lines, apart from how one is read. An argument spells occurrences, and may
leave the value of its last option to the next argument. What the parser accepts is spelt by the
grammar, with the occurrences that the parser found.

## Main definitions

* `ClusterSpells`, `ArgumentSpells`: the occurrences that letters and an argument spell, and the
  option that is left without its value
* `Spells`: the occurrences that some arguments spell

## Main results

* `CommandLine.argumentSpells_of_optionArgument`: an option that is accepted is spelt
* `CommandLine.spells_of_scan`: a command line that is accepted is spelt
-/

namespace PathFilter.CommandLine

/-- **What a cluster of letters spells**: its occurrences, and the option that needs the next
argument for its value. -/
inductive ClusterSpells : Text → List Occurrence → Option ValueOption → Prop where
  /-- No letter is left. -/
  | nil : ClusterSpells [] [] none
  /-- A letter of an option without a value stands among others. -/
  | letter {c : Char} {o : Occurrence} {rest : Text} {os : List Occurrence}
      {pending : Option ValueOption} (hc : ofLetter? c = some (.plain o))
      (h : ClusterSpells rest os pending) : ClusterSpells (c :: rest) (o :: os) pending
  /-- A letter of an option with a value has the value behind it. -/
  | attached {c : Char} {o : ValueOption} {v : Text} (hc : ofLetter? c = some (.valued o))
      (hv : v ≠ []) (he : v.head? ≠ some '=') : ClusterSpells (c :: v) [o.occurrence v] none
  /-- An equals sign may stand between the two. -/
  | equals {c : Char} {o : ValueOption} {v : Text} (hc : ofLetter? c = some (.valued o)) :
      ClusterSpells (c :: '=' :: v) [o.occurrence v] none
  /-- At the end of the cluster, such a letter has its value in the next argument. -/
  | last {c : Char} {o : ValueOption} (hc : ofLetter? c = some (.valued o)) :
      ClusterSpells [c] [] (some o)

/-- **What an argument spells** that looks like an option. -/
inductive ArgumentSpells : Text → List Occurrence → Option ValueOption → Prop where
  /-- A long option without a value. -/
  | plain {name : Text} {o : Occurrence} (h : ofName? name = some (.plain o)) :
      ArgumentSpells ('-' :: '-' :: name) [o] none
  /-- A long option with its value behind an equals sign. -/
  | equals {name v : Text} {o : ValueOption} (h : ofName? name = some (.valued o)) :
      ArgumentSpells ('-' :: '-' :: (name ++ '=' :: v)) [o.occurrence v] none
  /-- A long option with its value in the next argument. -/
  | last {name : Text} {o : ValueOption} (h : ofName? name = some (.valued o)) :
      ArgumentSpells ('-' :: '-' :: name) [] (some o)
  /-- A cluster of letters. -/
  | letters {letters : Text} {os : List Occurrence} {pending : Option ValueOption}
      (hdash : letters.head? ≠ some '-') (h : ClusterSpells letters os pending) :
      ArgumentSpells ('-' :: letters) os pending

/-- Whether an argument can be the value of an option before it. -/
def canBeValue (o : ValueOption) (v : Text) : Prop :=
  o.takesAnything = true ∨ looksLikeOption v = false

/-- **What some arguments spell**, in order. -/
inductive Spells : List Text → List Occurrence → Prop where
  /-- No argument is left. -/
  | nil : Spells [] []
  /-- An argument that does not look like an option is the directory. -/
  | directory {arg : Text} {args : List Text} {os : List Occurrence}
      (harg : looksLikeOption arg = false) (h : Spells args os) :
      Spells (arg :: args) (.directory arg :: os)
  /-- Behind two dashes every argument is. -/
  | ended (args : List Text) : Spells (['-', '-'] :: args) (args.map .directory)
  /-- An argument that is complete. -/
  | complete {arg : Text} {args : List Text} {os os' : List Occurrence}
      (harg : ArgumentSpells arg os none) (h : Spells args os') :
      Spells (arg :: args) (os ++ os')
  /-- An argument with the value of its last option behind it. -/
  | awaiting {arg v : Text} {args : List Text} {os os' : List Occurrence} {o : ValueOption}
      (harg : ArgumentSpells arg os (some o)) (hv : canBeValue o v) (h : Spells args os') :
      Spells (arg :: v :: args) (os ++ o.occurrence v :: os')

/-! ## What is accepted is spelt -/

section Accepted

variable {seen out : List Occurrence}

theorem eq_append_of_push {o : Occurrence} (h : push seen o = .ok out) : out = seen ++ [o] := by
  unfold push at h
  split at h
  · cases h
  · cases h
    rfl

theorem eq_append_of_pushValue {o : ValueOption} {v : Text} (h : pushValue seen o v = .ok out) :
    out = seen ++ [o.occurrence v] := by
  unfold pushValue at h
  split at h
  · cases h
  · exact eq_append_of_push h

theorem eq_append_of_pushPlain {arg : Text} (h : pushPlain seen arg = .ok out) :
    out = seen ++ [.directory arg] := by
  unfold pushPlain at h
  split at h
  · cases h
  · exact eq_append_of_push h

theorem exists_of_map_pushValue {o : ValueOption} {v : Text} {pending : Option ValueOption}
    (h : (pushValue seen o v).map (fun seen => (seen, none)) = .ok (out, pending)) :
    out = seen ++ [o.occurrence v] ∧ pending = none := by
  rcases hp : pushValue seen o v with s | mid
  · rw [hp] at h
    cases h
  · rw [hp] at h
    cases h
    exact ⟨eq_append_of_pushValue hp, rfl⟩

/-- Letters that are accepted are spelt. -/
theorem clusterSpells_of_cluster {letters : Text} {pending : Option ValueOption}
    (h : cluster seen letters = .ok (out, pending)) :
    ∃ os, out = seen ++ os ∧ ClusterSpells letters os pending := by
  induction letters generalizing seen with
  | nil =>
    cases h
    exact ⟨[], by simp, .nil⟩
  | cons c rest ih =>
    rw [cluster] at h
    split at h
    · cases h
    · cases h
    · next o hc =>
      rcases hp : push seen o with s | mid
      · rw [hp] at h
        cases h
      · rw [hp] at h
        obtain ⟨os, rfl, hos⟩ := ih h
        obtain rfl := eq_append_of_push hp
        exact ⟨o :: os, by simp, .letter hc hos⟩
    · next o hc =>
      split at h
      · cases h
        exact ⟨[], by simp, .last hc⟩
      · obtain ⟨rfl, rfl⟩ := exists_of_map_pushValue h
        exact ⟨_, rfl, .equals hc⟩
      · next hne he =>
        obtain ⟨rfl, rfl⟩ := exists_of_map_pushValue h
        refine ⟨_, rfl, .attached hc hne fun hhead => ?_⟩
        obtain ⟨v, rfl⟩ := List.head?_eq_some_iff.mp hhead
        exact he v rfl

/-- A long option that is accepted is spelt. -/
theorem argumentSpells_of_long {text : Text} {pending : Option ValueOption}
    (h : long seen text = .ok (out, pending)) :
    ∃ os, out = seen ++ os ∧ ArgumentSpells ('-' :: '-' :: text) os pending := by
  have hsplit := List.takeWhile_append_dropWhile (p := (· != '=')) (l := text)
  unfold long at h
  simp only at h
  split at h
  · next o ho hv =>
    rw [hv, List.append_nil] at hsplit
    rw [hsplit] at ho
    cases h
    exact ⟨[], by simp, .last ho⟩
  · next o c v ho hv =>
    have hc : c = '=' := by
      have hhead := List.head?_dropWhile_not (· != '=') text
      rw [hv] at hhead
      simpa using hhead
    subst hc
    rw [hv] at hsplit
    obtain ⟨rfl, rfl⟩ := exists_of_map_pushValue h
    exact ⟨_, rfl, hsplit ▸ .equals ho⟩
  · next o ho hv =>
    rw [hv, List.append_nil] at hsplit
    rw [hsplit] at ho
    rcases hp : push seen o with s | mid
    · rw [hp] at h
      cases h
    · rw [hp] at h
      cases h
      exact ⟨[o], eq_append_of_push hp, .plain ho⟩
  · cases h
  · cases h

/-- **An option that is accepted is spelt.** -/
theorem argumentSpells_of_optionArgument {arg : Text} {pending : Option ValueOption}
    (h : optionArgument seen arg = .ok (out, pending)) :
    ∃ os, out = seen ++ os ∧ ArgumentSpells arg os pending := by
  unfold optionArgument at h
  split at h
  · exact argumentSpells_of_long h
  · next text hdash =>
    obtain ⟨os, rfl, hos⟩ := clusterSpells_of_cluster h
    refine ⟨os, rfl, .letters (fun hhead => ?_) hos⟩
    obtain ⟨rest, rfl⟩ := List.head?_eq_some_iff.mp hhead
    exact hdash rest rfl
  · cases h

/-- Arguments behind two dashes that are accepted are directories. -/
theorem eq_append_of_plainArguments {args : List Text}
    (h : plainArguments seen args = .ok out) : out = seen ++ args.map .directory := by
  induction args generalizing seen with
  | nil =>
    cases h
    simp
  | cons arg args ih =>
    rw [plainArguments] at h
    rcases hp : pushPlain seen arg with s | mid
    · rw [hp] at h
      cases h
    · rw [hp] at h
      obtain rfl := eq_append_of_pushPlain hp
      simpa using ih h

/-- **A command line that is accepted is spelt**, with the occurrences that were found. -/
theorem spells_of_scan {args : List Text} (h : scan seen args = .ok out) :
    ∃ os, out = seen ++ os ∧ Spells args os := by
  fun_induction scan seen args with
  | case1 seen =>
    cases h
    exact ⟨[], by simp, .nil⟩
  | case2 seen args =>
    exact ⟨_, eq_append_of_plainArguments h, .ended args⟩
  | case4 seen arg args _ _ mid harg ih =>
    obtain ⟨os', rfl, hrest⟩ := ih h
    obtain ⟨os, rfl, hos⟩ := argumentSpells_of_optionArgument harg
    exact ⟨os ++ os', by simp, .complete hos hrest⟩
  | case7 seen arg _ _ mid o harg v args hv mid' hvalue ih =>
    obtain ⟨os', rfl, hrest⟩ := ih h
    obtain rfl := eq_append_of_pushValue hvalue
    obtain ⟨os, rfl, hos⟩ := argumentSpells_of_optionArgument harg
    have hv : canBeValue o v := by simpa [canBeValue] using hv
    exact ⟨os ++ o.occurrence v :: os', by simp, .awaiting hos hv hrest⟩
  | case10 seen arg args _ hlooks mid harg ih =>
    obtain ⟨os', rfl, hrest⟩ := ih h
    obtain rfl := eq_append_of_pushPlain harg
    exact ⟨.directory arg :: os', by simp, .directory (by simpa using hlooks) hrest⟩
  | _ => cases h

end Accepted

end PathFilter.CommandLine
