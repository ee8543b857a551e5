import PathFilter.Listing.Basic

/-!
# Putting out a listing

The lines of the entries go to the standard output at once, and so do the lines of directories that
cannot be listed to the standard error. Diagnostics wait until the next flush,
when those of info flags go to the standard output and those of debug flags to the standard error.
Diagnostics without a flush behind them keep waiting.

## Main definitions

* `Output`: the lines that were put out and the diagnostics that wait
* `Output.render`: a listing put out at a verbosity

## Main results

* `Output.render_flush`: nothing waits after a flush
-/

namespace PathFilter

/-- **What has been put out**, line by line, and what waits. -/
structure Output where
  stdout : List String
  stderr : List String
  pending : List Diagnostic
deriving DecidableEq, Repr

namespace Output

/-- Nothing put out, and some diagnostics waiting. -/
def waiting (pending : List Diagnostic) : Output := ⟨[], [], pending⟩

/-- The lines of the diagnostics of a family. -/
def linesOf (f : Family) (ds : List Diagnostic) : List String :=
  (ds.filter fun d => d.flag.family = f).map Diagnostic.text

/-- The diagnostics of a part of a listing that are wanted. -/
def diagnosticsOf (v : Verbosity) : ListingItem → List Diagnostic
  | .event e => v.observe [e]
  | .remark r => if v.admits r.flag r.level then [r.diagnostic] else []
  | _ => []

/-- **A listing put out** while some diagnostics wait. -/
def render (v : Verbosity) : List Diagnostic → List ListingItem → Output
  | pending, [] => waiting pending
  | pending, .entry e :: items =>
    let o := render v pending items
    { o with stdout := e.text :: o.stdout }
  | pending, .gap u :: items =>
    let o := render v pending items
    { o with stderr := u.line :: o.stderr }
  | pending, .flush :: items =>
    let o := render v [] items
    { o with
      stdout := linesOf .info pending ++ o.stdout
      stderr := linesOf .debug pending ++ o.stderr }
  | pending, item :: items => render v (pending ++ diagnosticsOf v item) items

@[simp] theorem render_nil (v : Verbosity) (pending : List Diagnostic) :
    render v pending [] = waiting pending := rfl

/-- Nothing waits after a flush. -/
theorem render_flush (v : Verbosity) (pending : List Diagnostic) (items : List ListingItem) :
    (render v pending (items ++ [.flush])).pending = [] := by
  induction items generalizing pending with
  | nil => rfl
  | cons item items ih => cases item <;> simp [render, ih]

end Output

end PathFilter
