import PathFilter.Diagnostic.Journal
import PathFilter.Proofs.Listing.Course
import PathFilter.Proofs.Listing.Written

/-!
# Explaining on demand

To explain an entry the rules are asked once more, and comparing them again is traced too. A walk
that knows its verbosity spares itself the explanation unless it is wanted. What it leaves out is of
one flag, and of a level that this flag does not have, so nothing that is recorded or put out is
missing: the walk says the same, as far as it can be told at its verbosity.

## Main definitions

* `Survey.mentionAt`, `Survey.listRootAt`: a walk that knows its verbosity
* `ListingItem.isWanted`, `Listing.LooksLike`: what can be told of a listing at a verbosity
* `Listing.verdicts`: the verdicts that a listing comes to
* `Journal.note`: a part of a listing recorded in a journal

## Main results

* `Listing.Respects.walk`: walks that say alike of every entry are alike
* `Survey.looksLike_listRootAt`: a walk that explains on demand looks like one that always does
* `Output.render_congr`: what looks the same is put out alike
* `Journal.foldl_note`: a journal keeps the diagnostics of a listing that are wanted
-/

namespace PathFilter

/-! ## A walk that knows its verbosity -/

namespace Survey

/-- **What is said about an entry** if it is explained on demand only. -/
def mentionAt (v : Verbosity) (s : Survey) (c : Chain) (candidate : Text) (isDirectory : Bool) :
    Listing :=
  s.mentionWith (if v.admits (.debug .filter) 1 then explanation c candidate isDirectory else [])
    c candidate isDirectory

/-- **The listing of a walk that knows its verbosity.** -/
def listRootAt (v : Verbosity) (s : Survey) (c : Chain) (path : Text) : Listing :=
  s.walk (s.mentionAt v) c path

end Survey

/-! ## Walks that say alike -/

namespace Listing.Respects

variable {R : Listing → Listing → Prop} {s : Survey} {say say' : Chain → Text → Bool → Listing}

/-- Entering a directory is alike if what follows is. -/
theorem entering (h : Respects R) (o : Outcome) (relative : Text) {next next' : Chain → Listing}
    (hnext : ∀ c, R (next c) (next' c)) :
    R (Survey.entering o relative next) (Survey.entering o relative next') := by
  unfold Survey.entering
  split
  · exact h.refl _
  · exact h.andThen (h.refl _) fun _ => hnext _

theorem listing (h : Respects R) (s : Survey) (path : Text) {entries entries' : Unit → Listing}
    (hentries : R (entries ()) (entries' ())) :
    R (s.listing path entries) (s.listing path entries') := by
  unfold Survey.listing
  split
  · exact h.refl _
  · exact hentries

/-- Walks through some entries are alike if those through each entry are. -/
theorem walkEntries (h : Respects R) {entries : List (Text × Node)}
    (hnode : ∀ x ∈ entries, ∀ c path relative name,
      R (s.walkNode say c path relative name x.2) (s.walkNode say' c path relative name x.2))
    (c : Chain) (path relative : Text) :
    R (s.walkEntries say c path relative entries) (s.walkEntries say' c path relative entries) := by
  induction entries with
  | nil => exact h.refl _
  | cons x entries ih =>
    obtain ⟨hfirst, hrest⟩ := List.forall_mem_cons.mp hnode
    rw [Survey.walkEntries, Survey.walkEntries]
    exact h.andThen (hfirst _ _ _ _) fun _ => ih hrest

/-- **Walks through a node that say alike of every entry are alike**, by induction on the node. -/
theorem walkNode (h : Respects R)
    (hsay : ∀ c candidate isDirectory,
      R (say c candidate isDirectory) (say' c candidate isDirectory))
    (node : Node) (c : Chain) (path relative name : Text) :
    R (s.walkNode say c path relative name node) (s.walkNode say' c path relative name node) := by
  induction node using Node.induction generalizing c path relative name with
  | hfile bytes => exact hsay _ _ _
  | hlink target => exact hsay _ _ _
  | hdirectory entries ih =>
    rw [Survey.walkNode, Survey.walkNode]
    refine h.andThen (hsay _ _ _) fun _ => ?_
    split
    · exact h.refl _
    · exact h.entering _ _ fun c' => h.listing s _ (h.walkEntries ih c' _ _)

/-- **Walks that say alike of every entry are alike.** -/
theorem walk (h : Respects R)
    (hsay : ∀ c candidate isDirectory,
      R (say c candidate isDirectory) (say' c candidate isDirectory))
    (c : Chain) (path : Text) : R (s.walk say c path) (s.walk say' c path) := by
  rw [Survey.walk, Survey.walk]
  refine h.andThen (h.refl _) fun _ => h.andThen ?_ fun _ => h.refl _
  refine h.entering _ _ fun c' => h.listing s _ ?_
  exact h.walkEntries (fun x _ => h.walkNode hsay x.2) c' _ _

end Listing.Respects

/-! ## What can be told at a verbosity -/

namespace ListingItem

/-- Whether a part of a listing is put out at a verbosity, at once or later. -/
def isWanted (v : Verbosity) : ListingItem → Bool
  | .event e => v.admits e.flag e.severity.level
  | .remark r => v.admits r.flag r.level
  | _ => true

/-- The verdict that a part of a listing tells of: about what, for which decision, and which. -/
def verdict? : ListingItem → Option (Text × Purpose × Verdict)
  | .event (.decided path purpose verdict) => some (path, purpose, verdict)
  | _ => none

/-- What is not wanted has no diagnostics. -/
theorem diagnosticsOf_of_not_isWanted {v : Verbosity} {item : ListingItem}
    (h : item.isWanted v = false) : Output.diagnosticsOf v item = [] := by
  cases item with
  | event e =>
    have he : v.admits e.flag e.severity.level = false := h
    simp [Output.diagnosticsOf, Verbosity.observe, he]
  | remark r =>
    have hr : v.admits r.flag r.level = false := h
    simp [Output.diagnosticsOf, hr]
  | _ => cases h

end ListingItem

/-- The verdicts of a listing, in order. -/
def Listing.verdicts (l : Listing) : List (Text × Purpose × Verdict) :=
  l.items.filterMap ListingItem.verdict?

/-- **Whether two listings look the same at a verbosity**: they come to the same verdicts and the
same end, and differ in what is not wanted only. -/
structure Listing.LooksLike (v : Verbosity) (l l' : Listing) : Prop where
  items : l.items.filter (·.isWanted v) = l'.items.filter (·.isWanted v)
  verdicts : l.verdicts = l'.verdicts
  tally : l.tally = l'.tally
  failure : l.failure = l'.failure

/-- Listings that look the same leave out as many directories. -/
theorem Listing.LooksLike.gaps {v : Verbosity} {l l' : Listing} (h : l.LooksLike v l') :
    l.gaps = l'.gaps := by
  have hfilter (m : Listing) : m.gaps =
      Listing.gaps ⟨m.items.filter (·.isWanted v), m.tally, m.failure⟩ := by
    rw [Listing.gaps, Listing.gaps, List.countP_filter]
    refine List.countP_congr fun item _ => ?_
    cases item <;> simp [ListingItem.isWanted]
  rw [hfilter l, hfilter l', h.items]
  rfl

/-- Listings in a row look the same if each does. -/
theorem Listing.respects_looksLike (v : Verbosity) : Listing.Respects (LooksLike v) where
  refl _ := ⟨rfl, rfl, rfl, rfl⟩
  andThen := by
    intro l l' next next' h hnext
    unfold Listing.andThen
    rw [← h.failure]
    cases hl : l.failure with
    | some e => exact ⟨h.items, h.verdicts, h.tally, h.failure⟩
    | none =>
      obtain ⟨hitems, hverdicts, htally, hfailure⟩ := hnext hl
      refine ⟨?_, ?_, ?_, hfailure⟩
      · simp only [List.filter_append, h.items, hitems]
      · have happend := congrArg₂ (· ++ ·) h.verdicts hverdicts
        simpa only [Listing.verdicts, List.filterMap_append] using happend
      · simp only [h.tally, htally]

namespace Output

variable {v : Verbosity} {items items' : List ListingItem}

/-- What is not wanted leaves no trace. -/
theorem render_filter (v : Verbosity) (pending : List Diagnostic) (items : List ListingItem) :
    render v pending (items.filter (·.isWanted v)) = render v pending items := by
  induction items generalizing pending with
  | nil => rfl
  | cons item items ih =>
    cases hitem : item.isWanted v with
    | true =>
      rw [List.filter_cons_of_pos hitem]
      cases item <;> simp only [render, ih]
    | false =>
      rw [List.filter_cons_of_neg (by simp [hitem]), ih]
      have hnone := ListingItem.diagnosticsOf_of_not_isWanted hitem
      cases item with
      | event e => simp only [render, hnone, List.append_nil]
      | remark r => simp only [render, hnone, List.append_nil]
      | _ => cases hitem

/-- **What looks the same is put out alike.** -/
theorem render_congr (h : items.filter (·.isWanted v) = items'.filter (·.isWanted v))
    (pending : List Diagnostic) : render v pending items = render v pending items' := by
  rw [← render_filter, h, render_filter]

/-- What is not wanted is not recorded. -/
theorem diagnosticsOf_filter (v : Verbosity) (items : List ListingItem) :
    (items.filter (·.isWanted v)).flatMap (diagnosticsOf v) = items.flatMap (diagnosticsOf v) := by
  induction items with
  | nil => rfl
  | cons item items ih =>
    cases hitem : item.isWanted v with
    | true => rw [List.filter_cons_of_pos hitem, List.flatMap_cons, List.flatMap_cons, ih]
    | false =>
      rw [List.filter_cons_of_neg (by simp [hitem]), List.flatMap_cons,
        ListingItem.diagnosticsOf_of_not_isWanted hitem, ih, List.nil_append]

/-- **What looks the same is recorded alike.** -/
theorem diagnosticsOf_congr (h : items.filter (·.isWanted v) = items'.filter (·.isWanted v)) :
    items.flatMap (diagnosticsOf v) = items'.flatMap (diagnosticsOf v) := by
  rw [← diagnosticsOf_filter, h, diagnosticsOf_filter]

end Output

/-! ## Explanations on demand -/

/-- Only comparisons come about when the rules are asked. -/
theorem Layer.eq_compared_of_mem_consulted {purpose : Purpose} {path : Text} {isDirectory : Bool}
    {layers : List Layer} {e : Event} (h : e ∈ consulted purpose path isDirectory layers) :
    ∃ r outcome, e = .compared path r outcome := by
  induction layers with
  | nil => cases h
  | cons l ls ih =>
    rw [consulted] at h
    rcases List.mem_append.mp h with h | h
    · obtain ⟨r, -, rfl⟩ := List.mem_map.mp h
      exact ⟨r, _, rfl⟩
    · split at h
      · cases h
      · exact ih h

namespace Survey

variable {v : Verbosity}

/-- An explanation that is not asked for would not be wanted. -/
theorem not_isWanted_of_mem_explanation (hv : v.admits (.debug .filter) 1 = false) {c : Chain}
    {candidate : Text} {isDirectory : Bool} {item : ListingItem}
    (h : item ∈ explanation c candidate isDirectory) : item.isWanted v = false := by
  have htwo : v.admits (.debug .filter) 2 = false := by
    simp only [Verbosity.admits, decide_eq_false_iff_not, UInt8.le_iff_toNat_le] at hv ⊢
    exact fun hle => hv (le_trans (by decide) hle)
  rcases List.mem_append.mp h with h | h
  · obtain ⟨e, he, rfl⟩ := List.mem_map.mp h
    obtain ⟨r, outcome, rfl⟩ := Layer.eq_compared_of_mem_consulted he
    exact htwo
  · split at h
    · obtain rfl := List.mem_singleton.mp h
      exact hv
    · cases h

/-- An explanation comes to no verdict. -/
theorem filterMap_verdict?_explanation (c : Chain) (candidate : Text) (isDirectory : Bool) :
    (explanation c candidate isDirectory).filterMap ListingItem.verdict? = [] := by
  refine List.filterMap_eq_nil_iff.mpr fun item h => ?_
  rcases List.mem_append.mp h with h | h
  · obtain ⟨e, he, rfl⟩ := List.mem_map.mp h
    obtain ⟨r, outcome, rfl⟩ := Layer.eq_compared_of_mem_consulted he
    rfl
  · split at h
    · obtain rfl := List.mem_singleton.mp h
      rfl
    · cases h

/-- An entry that is explained on demand looks like one that is explained. -/
theorem looksLike_mentionAt (v : Verbosity) (s : Survey) (c : Chain) (candidate : Text)
    (isDirectory : Bool) :
    (s.mentionAt v c candidate isDirectory).LooksLike v (s.mention c candidate isDirectory) := by
  unfold mentionAt mention
  cases hv : v.admits (.debug .filter) 1 with
  | true =>
    rw [if_pos rfl]
    exact (Listing.respects_looksLike v).refl _
  | false =>
    have hnone : (explanation c candidate isDirectory).filter (·.isWanted v) = [] :=
      List.filter_eq_nil_iff.mpr fun item hitem => by
        simp [not_isWanted_of_mem_explanation hv hitem]
    rw [if_neg Bool.false_ne_true]
    refine ⟨?_, ?_, rfl, rfl⟩
    · simp only [mentionWith, List.filter_append, hnone, List.filter_nil]
    · simp only [Listing.verdicts, mentionWith, List.filterMap_append,
        filterMap_verdict?_explanation, List.filterMap_nil]

/-- **A walk that explains on demand looks like one that always does.** -/
theorem looksLike_listRootAt (v : Verbosity) (s : Survey) (c : Chain) (path : Text) :
    (s.listRootAt v c path).LooksLike v (s.listRoot c path) :=
  (Listing.respects_looksLike v).walk (looksLike_mentionAt v s) c path

end Survey

/-! ## A listing recorded -/

namespace Journal

/-- **A part of a listing recorded**: what was traced goes by its trace record, and a remark by its
diagnostic. -/
def note (j : Journal) : ListingItem → Journal
  | .event e => j.trace e.record
  | .remark r => j.log r.diagnostic
  | _ => j

/-- The journal keeps the diagnostics that are wanted. -/
theorem note_eq (j : Journal) (item : ListingItem) :
    j.note item = { j with kept := j.kept ++ Output.diagnosticsOf j.verbosity item } := by
  cases item with
  | event e =>
    have htrace : j.note (.event e) = j.log e.diagnostic := by
      rw [note, trace, Event.diagnostic?_record]
    rw [htrace]
    cases h : j.verbosity.admits e.flag e.severity.level with
    | true =>
      rw [log_eq_emit h, Output.diagnosticsOf, Verbosity.observe]
      simp [emit, h]
    | false =>
      rw [log_eq_self h, Output.diagnosticsOf, Verbosity.observe]
      simp [h]
  | remark r =>
    cases h : j.verbosity.admits r.flag r.level with
    | true =>
      rw [note, log_eq_emit h, Output.diagnosticsOf, if_pos h]
      rfl
    | false =>
      rw [note, log_eq_self h, Output.diagnosticsOf, h]
      simp
  | _ => simp [note, Output.diagnosticsOf]

/-- **A journal keeps the diagnostics of a listing that are wanted**, in order. -/
theorem foldl_note (j : Journal) (items : List ListingItem) :
    items.foldl note j =
      { j with kept := j.kept ++ items.flatMap (Output.diagnosticsOf j.verbosity) } := by
  induction items generalizing j with
  | nil => simp
  | cons item items ih => rw [List.foldl_cons, ih, note_eq]; simp

end Journal

end PathFilter
