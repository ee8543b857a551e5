import PathFilter.CommandLine.Run

/-!
# What a listing shows

Of a listing that has not failed one can see the lines of its entries, the directories that it
entered, and the counts. Of two listings in a row one sees what the first shows and then what the
second does. The events of reading and asking rules enter no directory, and while no info flag is
set nothing but lines of entries is put out on the standard output.

## Main definitions

* `ListingItem.entry?`, `ListingItem.entered?`: what a part of a listing shows
* `Listing.visited`: the directories that a listing entered, in order
* `Listing.Shows`: a listing shows some lines and directories, and counts the lines
* `Entry.isEntered`: a line is that of a directory which is not excluded

## Main results

* `Listing.Shows.andThen`: what two listings in a row show
* `Output.stdout_render`: the standard output is the lines of the entries
* `Survey.shows_mention`: what is said about an entry shows its line
* `Survey.shows_entering`: entering a directory shows the directory, and then what follows
-/

namespace PathFilter

/-- The directory that an event enters. -/
def Event.entered? : Event → Option Text
  | .entered directory _ => some directory
  | _ => none

namespace ListingItem

/-- The entry that a part of a listing is the line of. -/
def entry? : ListingItem → Option Entry
  | .entry e => some e
  | _ => none

/-- The directory that a part of a listing enters. -/
def entered? : ListingItem → Option Text
  | .event e => e.entered?
  | _ => none

/-- **Whether some parts of a listing show** the lines of some entries and enter some directories,
no entries being left out. -/
structure Show (items : List ListingItem) (entries : List Entry) (visited : List Text) : Prop where
  entries : items.filterMap entry? = entries
  visited : items.filterMap entered? = visited
  complete : ∀ u, .gap u ∉ items

theorem Show.append {items items' : List ListingItem} {es es' : List Entry} {ds ds' : List Text}
    (h : Show items es ds) (h' : Show items' es' ds') :
    Show (items ++ items') (es ++ es') (ds ++ ds') where
  entries := by rw [List.filterMap_append, h.entries, h'.entries]
  visited := by rw [List.filterMap_append, h.visited, h'.visited]
  complete u hu := (List.mem_append.mp hu).elim (h.complete u) (h'.complete u)

theorem show_nil : Show [] [] [] := ⟨rfl, rfl, by simp⟩

theorem show_entry (e : Entry) : Show [.entry e] [e] [] := ⟨rfl, rfl, by simp⟩

theorem show_remark (r : Remark) : Show [.remark r] [] [] := ⟨rfl, rfl, by simp⟩

theorem show_flush : Show [.flush] [] [] := ⟨rfl, rfl, by simp⟩

theorem show_events (events : List Event) :
    Show (events.map .event) [] (events.filterMap Event.entered?) where
  entries := by simp [List.filterMap_map, Function.comp_def, entry?]
  visited := by rw [List.filterMap_map]; rfl
  complete := by simp

end ListingItem

/-! ## Events that enter no directory -/

/-- Whether none of some events enters a directory. -/
def Event.EnterNothing (events : List Event) : Prop := events.filterMap entered? = []

theorem ListingItem.show_quiet {events : List Event} (h : Event.EnterNothing events) :
    Show (events.map .event) [] [] :=
  h ▸ show_events events

namespace Event

theorem EnterNothing.append {es fs : List Event} (h : EnterNothing es) (h' : EnterNothing fs) :
    EnterNothing (es ++ fs) := by
  rw [EnterNothing, List.filterMap_append, h, h']
  rfl

theorem enterNothing_comparisons (rules : RuleList) (path : Text) (isDirectory : Bool) :
    EnterNothing (RuleList.comparisons rules path isDirectory) := by
  simp [EnterNothing, RuleList.comparisons, List.filterMap_map, Function.comp_def, entered?]

theorem enterNothing_consulted (purpose : Purpose) (path : Text) (isDirectory : Bool)
    (layers : List Layer) : EnterNothing (Layer.consulted purpose path isDirectory layers) := by
  induction layers with
  | nil => rfl
  | cons l ls ih =>
    refine (enterNothing_comparisons _ path isDirectory).append ?_
    split
    · rfl
    · exact ih

theorem enterNothing_checkEvents (c : Chain) (candidate : Text) (isDirectory : Bool)
    (purpose : Purpose) : EnterNothing (c.checkEvents candidate isDirectory purpose) :=
  (enterNothing_consulted _ _ _ _).append rfl

end Event

/-- Whether a change enters no directory on its way. -/
def Outcome.EntersNothing (o : Outcome) : Prop := Event.EnterNothing o.events

namespace Outcome

theorem EntersNothing.andThen {o : Outcome} {f : Chain → Outcome} (ho : o.EntersNothing)
    (hf : ∀ c, (f c).EntersNothing) : (o.andThen f).EntersNothing := by
  unfold Outcome.andThen
  split
  · exact ho
  · exact Event.EnterNothing.append ho (hf _)

theorem entersNothing_apply (e : Edit) (c : Chain) : (e.apply c).EntersNothing := by
  cases e with
  | hideDeclared =>
    simp only [Edit.apply]
    split
    · rfl
    · split <;> rfl
  | _ => rfl

theorem entersNothing_run (s : Script) (c : Chain) : (s.run c).EntersNothing := by
  induction s generalizing c with
  | done => rfl
  | fail e => rfl
  | edit e rest ih => exact (entersNothing_apply e c).andThen ih
  | merge file body rest ihb ih =>
    exact (ihb c).andThen fun c' => EntersNothing.andThen (o := ⟨c', _, none⟩) rfl ih

theorem entersNothing_descend (files : FileTree) (outer : Chain) (directory : Text) :
    (outer.descend files directory).EntersNothing := by
  simp only [Chain.descend]
  split
  · rfl
  · split
    · exact (entersNothing_run _ _).andThen fun c => (entersNothing_run _ c).andThen fun _ => rfl
    · rfl

theorem entersNothing_addBuilt (c : Chain) (x : Except FilterError Rule) :
    (c.addBuilt x).EntersNothing := by
  cases x <;> rfl

theorem entersNothing_source (files : FileTree) (c : Chain) (source : RuleSource) :
    (source.apply files c).EntersNothing := by
  unfold RuleSource.apply
  split
  · exact entersNothing_run _ c
  · exact entersNothing_addBuilt c _
  · exact entersNothing_addBuilt c _
  · exact entersNothing_run _ c
  · exact entersNothing_run _ c
  · exact entersNothing_run _ c
  · exact entersNothing_addBuilt c _
  · rfl

theorem entersNothing_sources (files : FileTree) (c : Chain) (sources : List RuleSource) :
    (RuleSource.applyAll files c sources).EntersNothing := by
  induction sources generalizing c with
  | nil => rfl
  | cons source sources ih => exact (entersNothing_source files c source).andThen ih

end Outcome

/-! ## Listings -/

/-- **Whether a tally counts** the verdicts of some entries. -/
structure Tally.Counts (t : Tally) (entries : List Entry) : Prop where
  included : t.included = entries.countP (·.verdict = .included)
  excluded : t.excluded = entries.countP (·.verdict = .excluded)
  neutral : t.neutral = entries.countP (·.verdict = .neutral)

namespace Tally

theorem counts_zero : zero.Counts [] := ⟨rfl, rfl, rfl⟩

theorem counts_addVerdict (e : Entry) : (zero.addVerdict e.verdict).Counts [e] := by
  rcases h : e.verdict <;> constructor <;> simp [h, addVerdict, zero]

theorem Counts.add {t u : Tally} {es es' : List Entry} (h : t.Counts es) (h' : u.Counts es') :
    (t.add u).Counts (es ++ es') where
  included := by rw [List.countP_append, ← h.included, ← h'.included]; rfl
  excluded := by rw [List.countP_append, ← h.excluded, ← h'.excluded]; rfl
  neutral := by rw [List.countP_append, ← h.neutral, ← h'.neutral]; rfl

/-- Every entry that is not excluded passes. -/
theorem Counts.passed {t : Tally} {es : List Entry} (h : t.Counts es) :
    t.passed = es.countP (·.verdict ≠ .excluded) := by
  rw [Tally.passed, h.included, h.neutral]
  clear h
  induction es with
  | nil => rfl
  | cons e es ih =>
    simp only [List.countP_cons, ← ih]
    rcases e.verdict <;> simp <;> omega

/-- Every entry is evaluated. -/
theorem Counts.evaluated {t : Tally} {es : List Entry} (h : t.Counts es) :
    t.evaluated = es.length := by
  rw [← passed_add_excluded, h.passed, h.excluded, List.length_eq_countP_add_countP
    (p := (·.verdict ≠ .excluded))]
  simp

end Tally

/-- Whether a line is that of a directory which is not excluded. -/
def Entry.isEntered (e : Entry) : Bool := e.isDirectory && e.verdict != .excluded

/-- The directories among some entries that are not excluded. -/
def Entry.enteredPaths (entries : List Entry) : List Text := (entries.filter isEntered).map path

theorem Entry.enteredPaths_append (es es' : List Entry) :
    enteredPaths (es ++ es') = enteredPaths es ++ enteredPaths es' := by
  simp [enteredPaths]

namespace Listing

/-- The directories that a listing entered, in order. -/
def visited (l : Listing) : List Text := l.items.filterMap ListingItem.entered?

/-- **Whether a listing shows** the lines of some entries and enters some directories. It has not
failed, no entries are left out, and it counts the verdict of every line. -/
structure Shows (l : Listing) (entries : List Entry) (visited : List Text) : Prop where
  failure : l.failure = none
  items : ListingItem.Show l.items entries visited
  counts : l.tally.Counts entries

/-- Two listings in a row show what the first shows and then what the second does. -/
theorem Shows.andThen {l : Listing} {next : Unit → Listing} {es es' : List Entry}
    {ds ds' : List Text} (h : l.Shows es ds) (h' : (next ()).Shows es' ds') :
    (l.andThen next).Shows (es ++ es') (ds ++ ds') := by
  obtain ⟨items, tally, failure⟩ := l
  obtain ⟨rfl, hitems, hcounts⟩ := h
  exact ⟨h'.failure, hitems.append h'.items, hcounts.add h'.counts⟩

theorem shows_ofItems {items : List ListingItem} {ds : List Text}
    (h : ListingItem.Show items [] ds) : (ofItems items).Shows [] ds :=
  ⟨rfl, h, Tally.counts_zero⟩

theorem shows_empty : empty.Shows [] [] := shows_ofItems ListingItem.show_nil

theorem Shows.gaps {l : Listing} {es : List Entry} {ds : List Text} (h : l.Shows es ds) :
    l.gaps = 0 := by
  rw [Listing.gaps, List.countP_eq_zero]
  intro item hitem
  cases item with
  | gap u => exact absurd hitem (h.items.complete u)
  | _ => exact Bool.false_ne_true

end Listing

/-! ## The parts of a walk -/

namespace Survey

theorem show_explanation (c : Chain) (candidate : Text) (isDirectory : Bool) :
    ListingItem.Show (explanation c candidate isDirectory) [] [] := by
  unfold explanation
  refine (ListingItem.show_quiet (Event.enterNothing_consulted ..)).append ?_
  split
  · exact ListingItem.show_remark _
  · exact ListingItem.show_nil

/-- **What is said about an entry shows its line.** -/
theorem shows_mention (s : Survey) (c : Chain) (candidate : Text) (isDirectory : Bool) :
    (s.mention c candidate isDirectory).Shows
      [⟨candidate, isDirectory, c.check candidate isDirectory .transfer,
        if s.withDeletion then some (c.protects candidate isDirectory) else none⟩] [] := by
  have hdeletion : ListingItem.Show ((if s.withDeletion then
      c.checkEvents candidate isDirectory .deletion else []).map .event) [] [] := by
    refine ListingItem.show_quiet ?_
    split
    · exact Event.enterNothing_checkEvents ..
    · rfl
  have hremark {p : Prop} [Decidable p] (r : Remark) :
      ListingItem.Show (if p then [.remark r] else []) [] [] := by
    split
    · exact ListingItem.show_remark r
    · exact ListingItem.show_nil
  have habsence : ListingItem.Show
      (if c.isAvailable then [] else [.remark (.unfiltered candidate isDirectory)]) [] [] := by
    split
    · exact ListingItem.show_nil
    · exact ListingItem.show_remark _
  have hverdict : ListingItem.Show
      ((c.checkEvents candidate isDirectory .transfer).map .event ++
        explanation c candidate isDirectory) [] [] :=
    (ListingItem.show_quiet (Event.enterNothing_checkEvents ..)).append (show_explanation ..)
  exact ⟨rfl, (((((hverdict.append hdeletion).append (ListingItem.show_entry _)).append
    (hremark _)).append habsence).append ListingItem.show_flush),
    Tally.counts_addVerdict ⟨_, _, _, _⟩⟩

/-- **Entering a directory shows the directory**, and then what follows. -/
theorem shows_entering {o : Outcome} (hload : o.failure = none) (hquiet : o.EntersNothing)
    (relative : Text) {next : Chain → Listing} {es : List Entry} {ds : List Text}
    (h : (next o.chain).Shows es ds) : (entering o relative next).Shows es (relative :: ds) := by
  have hitems := (ListingItem.show_quiet hquiet).append
    (ListingItem.show_events [.entered relative o.chain.here.rules.length])
  have hentered {t : Tally} (ht : t.Counts []) :
      Listing.Shows ⟨_, t, none⟩ [] [relative] := ⟨rfl, hitems, ht⟩
  simp only [entering, hload]
  cases o.chain.here.loaded with
  | some n => exact (hentered ⟨rfl, rfl, rfl⟩).andThen h
  | none => exact (hentered Tally.counts_zero).andThen h

end Survey

/-! ## The standard output -/

namespace Output

/-- A diagnostic that waits is one of a debug flag while no info flag is set. -/
theorem family_of_mem_diagnosticsOf {v : Verbosity} (hv : ∀ flag, v.level (.info flag) = 0)
    {item : ListingItem} {d : Diagnostic} (hd : d ∈ diagnosticsOf v item) :
    d.flag.family = .debug := by
  cases item with
  | event e =>
    simp only [diagnosticsOf, Verbosity.observe, List.mem_map] at hd
    obtain ⟨e', -, rfl⟩ := hd
    cases e' <;> rfl
  | remark r =>
    simp only [diagnosticsOf] at hd
    split at hd
    · next hadmits =>
      obtain rfl := List.mem_singleton.mp hd
      cases r with
      | explained path isDirectory rule => rfl
      | _ => simp [Verbosity.admits, Remark.flag, Remark.level, hv] at hadmits
    · cases hd
  | _ => simp [diagnosticsOf] at hd

/-- **The standard output is the lines of the entries** while no info flag is set. -/
theorem stdout_render {v : Verbosity} (hv : ∀ flag, v.level (.info flag) = 0)
    {pending : List Diagnostic} (hp : ∀ d ∈ pending, d.flag.family = .debug)
    (items : List ListingItem) :
    (render v pending items).stdout = (items.filterMap ListingItem.entry?).map Entry.text := by
  induction items generalizing pending with
  | nil => rfl
  | cons item items ih =>
    have hnext : ∀ d ∈ pending ++ diagnosticsOf v item, d.flag.family = .debug := fun d hd =>
      (List.mem_append.mp hd).elim (hp d) (family_of_mem_diagnosticsOf hv)
    cases item with
    | entry e => simp [render, ListingItem.entry?, ih hp]
    | gap u => simp [render, List.filterMap_cons, ListingItem.entry?, ih hp]
    | event e => simp [render, List.filterMap_cons, ListingItem.entry?, ih hnext]
    | remark r => simp [render, List.filterMap_cons, ListingItem.entry?, ih hnext]
    | flush =>
      have hinfo : linesOf .info pending = [] := by
        rw [linesOf, List.map_eq_nil_iff, List.filter_eq_nil_iff]
        intro d hd
        simp [hp d hd]
      have hrest : (render v [] items).stdout = _ := ih (by simp)
      simp [render, List.filterMap_cons, ListingItem.entry?, hinfo, hrest]

end Output

/-- No counts are shown while no info flag is set. -/
theorem Tally.lines_eq_nil {v : Verbosity} (hv : ∀ flag, v.level (.info flag) = 0) (t : Tally) :
    t.lines v = [] := by
  simp [Tally.lines, Verbosity.admits, hv]

end PathFilter
