import PathFilter.Proofs.Listing.Course
import PathFilter.Proofs.Listing.Shown

/-!
# What is listed outside a directory

The entries that are listed of a directory lie below it, and so do those of the directories there.
So of two walks that see different things in one directory, or in those below it, the listings have
the same entries outside it.

## Main definitions

* `Path.liesBelow`: a path lies below a directory
* `Listing.AlikeOff`: two listings have the same entries but for those below a directory
* `Listing.EntriesBelow`: all entries of a listing lie below a directory

## Main results

* `Survey.carries_entriesBelow`: the entries that are listed of a directory lie below it
* `Survey.follows_alikeOff`: what is said of a directory is overlooked outside it
-/

namespace PathFilter

/-- Whether a path lies below a directory. -/
def Path.liesBelow (directory path : Text) : Bool := (directory ++ ['/']).isPrefixOf path

/-- Whether a path is that of a directory or lies below it. -/
def Path.isWithin (directory path : Text) : Bool := path == directory || liesBelow directory path

namespace Path

theorem liesBelow_below (directory name : Text) :
    liesBelow directory (below directory name) = true := by
  rw [liesBelow, List.isPrefixOf_iff_prefix, below]
  exact ⟨name, by simp⟩

theorem liesBelow_of_isWithin {directory path path' : Text} (h : isWithin directory path = true)
    (h' : liesBelow path path' = true) : liesBelow directory path' = true := by
  rw [liesBelow, List.isPrefixOf_iff_prefix] at h' ⊢
  rw [isWithin, Bool.or_eq_true, beq_iff_eq] at h
  obtain rfl | h := h
  · exact h'
  · rw [liesBelow, List.isPrefixOf_iff_prefix] at h
    exact (h.trans (List.prefix_append _ _)).trans h'

end Path

/-! ## Listings off a directory -/

namespace Listing

theorem entries_eq (l : Listing) : l.entries = l.items.filterMap ListingItem.entry? := by
  rw [entries]
  congr 1

theorem andThen_of_none {l : Listing} (h : l.failure = none) (next : Unit → Listing) :
    (l.andThen next).failure = (next ()).failure ∧
      (l.andThen next).entries = l.entries ++ (next ()).entries := by
  simp only [andThen, h, entries, List.filterMap_append, and_self]

theorem failure_of_andThen {l : Listing} {next : Unit → Listing}
    (h : (l.andThen next).failure = none) : l.failure = none := by
  cases hl : l.failure with
  | none => rfl
  | some e =>
    simp only [andThen, hl] at h
    cases h

/-- The entries of a listing but for those below a directory. -/
def entriesOff (directory : Text) (l : Listing) : List Entry :=
  l.entries.filter fun e => !Path.liesBelow directory e.path

/-- Whether two listings that have not failed have the same entries but for those below a
directory. -/
def AlikeOff (directory : Text) (l l' : Listing) : Prop :=
  l.failure = none → l'.failure = none → l.entriesOff directory = l'.entriesOff directory

theorem respects_alikeOff (directory : Text) : Respects (AlikeOff directory) where
  refl _ _ _ := rfl
  andThen := by
    intro l l' next next' h hnext hok hok'
    have hl := failure_of_andThen hok
    have hl' := failure_of_andThen hok'
    obtain ⟨hfailure, hentries⟩ := andThen_of_none hl next
    obtain ⟨hfailure', hentries'⟩ := andThen_of_none hl' next'
    have hfirst := h hl hl'
    have hsecond := hnext hl (hfailure ▸ hok) (hfailure' ▸ hok')
    simp only [entriesOff] at hfirst hsecond ⊢
    rw [hentries, hentries', List.filter_append, List.filter_append, hfirst, hsecond]

/-- Whether all entries of a listing lie below a directory. -/
structure EntriesBelow (directory : Text) (l : Listing) : Prop where
  liesBelow : ∀ e ∈ l.entries, Path.liesBelow directory e.path = true

theorem entriesBelow_of_nil {directory : Text} {l : Listing} (h : l.entries = []) :
    l.EntriesBelow directory := by
  refine ⟨fun e he => ?_⟩
  rw [h] at he
  cases he

theorem EntriesBelow.andThen {directory : Text} {l : Listing} {next : Unit → Listing}
    (h : l.EntriesBelow directory) (hnext : (next ()).EntriesBelow directory) :
    (l.andThen next).EntriesBelow directory := by
  cases hl : l.failure with
  | some e => simpa only [Listing.andThen, hl] using h
  | none =>
    refine ⟨fun e he => ?_⟩
    rw [(andThen_of_none hl next).2] at he
    exact (List.mem_append.mp he).elim (h.liesBelow e) (hnext.liesBelow e)

theorem EntriesBelow.of_isWithin {directory relative : Text} {l : Listing}
    (h : l.EntriesBelow relative) (hw : Path.isWithin directory relative = true) :
    l.EntriesBelow directory :=
  ⟨fun e he => Path.liesBelow_of_isWithin hw (h.liesBelow e he)⟩

theorem EntriesBelow.entriesOff {directory : Text} {l : Listing} (h : l.EntriesBelow directory) :
    l.entriesOff directory = [] := by
  rw [Listing.entriesOff, List.filter_eq_nil_iff]
  intro e he
  simp [h.liesBelow e he]

end Listing

namespace Survey

/-- **The entries that are listed of a directory lie below it.** -/
theorem carries_entriesBelow (s : Survey) :
    s.Carries fun relative l => l.EntriesBelow relative where
  events _ _ _ _ := Listing.entriesBelow_of_nil (by simp [Listing.entries, List.filterMap_map])
  gap _ _ := Listing.entriesBelow_of_nil rfl
  skipped _ _ := Listing.entriesBelow_of_nil rfl
  mention c relative name isDirectory := by
    refine ⟨fun e he => ?_⟩
    rw [Listing.entries_eq, (shows_mention s c _ isDirectory).items.entries,
      List.mem_singleton] at he
    rw [he]
    exact Path.liesBelow_below relative name
  andThen := .andThen
  below h := h.of_isWithin (by rw [Path.isWithin, Path.liesBelow_below, Bool.or_true])

/-- Two walks say the same off a directory, whatever is said below it. -/
theorem follows_alikeOff (files files' : FileTree) (withDeletion : Bool) (directory : Text) :
    Follows (Listing.AlikeOff directory) (fun relative => Path.isWithin directory relative = true)
      ⟨files, withDeletion⟩ ⟨files', withDeletion⟩ where
  respects := Listing.respects_alikeOff directory
  withDeletion := rfl
  overlooks := by
    intro e es fs hover _ _
    have hbelow (s : Survey) (entries : List (Text × Node)) :
        (s.visit e entries).EntriesBelow directory :=
      (s.carries_entriesBelow.visitAll e entries).of_isWithin hover
    rw [(hbelow _ es).entriesOff, (hbelow _ fs).entriesOff]

end Survey

end PathFilter
