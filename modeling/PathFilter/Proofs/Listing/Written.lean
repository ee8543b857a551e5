import PathFilter.CommandLine.Run

/-!
# Where the lines of a run come from

Every line that a run puts out shows something: an entry, a directory that cannot be listed, a
diagnostic, a count or a failure. A diagnostic is recorded first and shown with the next flush.
Seen in order, the diagnostics that are shown and then those that still wait are the ones that were
recorded, so a diagnostic that is not shown waits.

## Main definitions

* `OutputLine`: what a line shows
* `OutputLine.channel`: where the line is put out
* `Output.shown`: the lines of a listing put out at a verbosity
* `ListingItem.unflushed`: the parts of a listing behind its last flush

## Main results

* `Output.textsOn_shown`: what is put out is the text of the lines
* `Output.diagnostics_shown_append_pending`: no diagnostic is lost, doubled or moved
* `Output.pending_eq`: what waits is what was recorded behind the last flush
-/

namespace PathFilter

/-- One of the two places where lines are put out. -/
inductive Channel where
  /-- The standard output. -/
  | output
  /-- The standard error. -/
  | error
deriving DecidableEq, Repr

/-- The place for the diagnostics of a family. -/
def Family.channel : Family → Channel
  | .info => .output
  | .debug => .error

/-- **What a line shows.** -/
inductive OutputLine where
  | entry (e : Entry)
  | gap (u : Unlisted)
  | diagnostic (d : Diagnostic)
  /-- A line of the counts. -/
  | count (text : String)
  | failure (f : RunFailure)
deriving DecidableEq, Repr

namespace OutputLine

def channel : OutputLine → Channel
  | entry _ => .output
  | gap _ => .error
  | diagnostic d => d.flag.family.channel
  | count _ => .output
  | failure _ => .error

def text : OutputLine → String
  | entry e => e.text
  | gap u => u.line
  | diagnostic d => d.text
  | count t => t
  | failure f => f.line

def diagnostic? : OutputLine → Option Diagnostic
  | diagnostic d => some d
  | _ => none

/-- The texts of the lines for one place, in order. -/
def textsOn (c : Channel) (ls : List OutputLine) : List String :=
  (ls.filter (·.channel = c)).map text

/-- The diagnostics among some lines, in order. -/
def diagnostics (ls : List OutputLine) : List Diagnostic := ls.filterMap diagnostic?

@[simp] theorem textsOn_append (c : Channel) (ls ms : List OutputLine) :
    textsOn c (ls ++ ms) = textsOn c ls ++ textsOn c ms := by
  simp [textsOn]

@[simp] theorem diagnostics_append (ls ms : List OutputLine) :
    diagnostics (ls ++ ms) = diagnostics ls ++ diagnostics ms :=
  List.filterMap_append

theorem diagnostics_map (ds : List Diagnostic) : diagnostics (ds.map diagnostic) = ds := by
  induction ds with
  | nil => rfl
  | cons d ds ih => exact congrArg (d :: ·) ih

theorem textsOn_diagnostics (f : Family) (ds : List Diagnostic) :
    textsOn f.channel (ds.map diagnostic) = Output.linesOf f ds := by
  have hchannel : ∀ g : Family, (g.channel = f.channel) = (g = f) := by
    intro g
    cases f <;> cases g <;> decide
  simp [textsOn, Output.linesOf, List.filter_map, Function.comp_def, channel, hchannel, text]

end OutputLine

/-! ## Listings -/

namespace ListingItem

/-- What is put out later, as it grows by one part of a listing. -/
def wait (waiting : List ListingItem) (item : ListingItem) : List ListingItem :=
  if item = .flush then [] else waiting ++ [item]

/-- **The parts of a listing behind its last flush.** -/
def unflushed (items : List ListingItem) : List ListingItem := items.foldl wait []

theorem foldl_wait (waiting items : List ListingItem) :
    items.foldl wait waiting = if .flush ∈ items then unflushed items else waiting ++ items := by
  induction items generalizing waiting with
  | nil => simp
  | cons item items ih =>
    have hall : unflushed (item :: items) = items.foldl wait (wait [] item) := rfl
    rw [hall, List.foldl_cons, ih, ih (wait [] item)]
    by_cases hitem : item = .flush
    · simp [hitem, wait]
    · have hne : ListingItem.flush ≠ item := fun h => hitem h.symm
      by_cases hflush : ListingItem.flush ∈ items <;> simp [hitem, hne, hflush, wait]

theorem unflushed_concat_flush (items : List ListingItem) : unflushed (items ++ [.flush]) = [] := by
  rw [unflushed, List.foldl_append]
  rfl

/-- What stands behind the last flush of two listings in a row stands behind that of one of them. -/
theorem mem_of_mem_unflushed_append {items items' : List ListingItem} {item : ListingItem}
    (h : item ∈ unflushed (items ++ items')) :
    item ∈ unflushed items ∨ item ∈ unflushed items' := by
  rw [unflushed, List.foldl_append, foldl_wait] at h
  split at h
  · exact .inr h
  · next hflush =>
    have hall : unflushed items' = items' := by rw [unflushed, foldl_wait, if_neg hflush]; rfl
    rw [hall]
    exact List.mem_append.mp h

end ListingItem

namespace Output

/-- **The lines of a listing put out** while some diagnostics wait. -/
def shown (v : Verbosity) : List Diagnostic → List ListingItem → List OutputLine
  | _, [] => []
  | pending, .entry e :: items => .entry e :: shown v pending items
  | pending, .gap u :: items => .gap u :: shown v pending items
  | pending, .flush :: items => pending.map .diagnostic ++ shown v [] items
  | pending, item :: items => shown v (pending ++ diagnosticsOf v item) items

variable (v : Verbosity)

/-- **What is put out is the text of the lines**, on the standard output and on the standard
error. -/
theorem textsOn_shown (pending : List Diagnostic) (items : List ListingItem) :
    OutputLine.textsOn .output (shown v pending items) = (render v pending items).stdout ∧
      OutputLine.textsOn .error (shown v pending items) = (render v pending items).stderr := by
  induction items generalizing pending with
  | nil => exact ⟨rfl, rfl⟩
  | cons item items ih =>
    cases item with
    | entry e => exact ⟨congrArg (e.text :: ·) (ih pending).1, (ih pending).2⟩
    | gap u => exact ⟨(ih pending).1, congrArg (u.line :: ·) (ih pending).2⟩
    | event e => exact ih _
    | remark r => exact ih _
    | flush =>
      have hinfo := OutputLine.textsOn_diagnostics .info pending
      have hdebug := OutputLine.textsOn_diagnostics .debug pending
      simp only [Family.channel] at hinfo hdebug
      simp only [shown, render, OutputLine.textsOn_append, hinfo, hdebug, ih, and_self]

/-- **No diagnostic is lost, doubled or moved**: those that are shown and then those that wait are
the ones that waited before and then the ones that were recorded. -/
theorem diagnostics_shown_append_pending (pending : List Diagnostic) (items : List ListingItem) :
    OutputLine.diagnostics (shown v pending items) ++ (render v pending items).pending =
      pending ++ items.flatMap (diagnosticsOf v) := by
  induction items generalizing pending with
  | nil => simp [shown, waiting, OutputLine.diagnostics]
  | cons item items ih =>
    cases item with
    | entry e => exact ih pending
    | gap u => exact ih pending
    | event e =>
      rw [List.flatMap_cons, ← List.append_assoc]
      exact ih _
    | remark r =>
      rw [List.flatMap_cons, ← List.append_assoc]
      exact ih _
    | flush =>
      rw [shown, OutputLine.diagnostics_append, OutputLine.diagnostics_map, List.append_assoc]
      exact congrArg (pending ++ ·) (ih [])

/-- Until the next flush what waits grows by what is recorded. -/
theorem pending_render_cons {item : ListingItem} (h : item ≠ .flush) (pending : List Diagnostic)
    (items : List ListingItem) :
    (render v pending (item :: items)).pending =
      (render v (pending ++ diagnosticsOf v item) items).pending := by
  cases item with
  | flush => exact absurd rfl h
  | entry e => simp [render, diagnosticsOf]
  | gap u => simp [render, diagnosticsOf]
  | event e => rfl
  | remark r => rfl

theorem pending_eq_foldl (waiting items : List ListingItem) :
    (render v (waiting.flatMap (diagnosticsOf v)) items).pending =
      (items.foldl ListingItem.wait waiting).flatMap (diagnosticsOf v) := by
  induction items generalizing waiting with
  | nil => rfl
  | cons item items ih =>
    rw [List.foldl_cons, ListingItem.wait, ← ih]
    by_cases hitem : item = .flush
    · subst hitem
      rfl
    · rw [pending_render_cons v hitem, if_neg hitem, List.flatMap_append, List.flatMap_singleton]

/-- **What waits is what was recorded behind the last flush.** -/
theorem pending_eq (items : List ListingItem) :
    (render v [] items).pending = (ListingItem.unflushed items).flatMap (diagnosticsOf v) :=
  pending_eq_foldl v [] items

end Output

end PathFilter
