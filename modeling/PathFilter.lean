import PathFilter.Main
import PathFilter.Diagnostic.Journal
import PathFilter.FileTree.Update
import PathFilter.Glob.Language
import PathFilter.Verbosity.Json
import PathFilter.Proofs.Text.Decoding
import PathFilter.Proofs.FileTree.PlainPath
import PathFilter.Proofs.Glob.ClassNotation
import PathFilter.Proofs.Glob.Reading
import PathFilter.Proofs.Chain.Climb
import PathFilter.Proofs.Chain.Outcome
import PathFilter.Proofs.Chain.InPlace
import PathFilter.Proofs.Chain.Rejection
import PathFilter.Proofs.CommandLine.Spelling
import PathFilter.Proofs.Rule.Depth
import PathFilter.Proofs.Chain.Nesting
import PathFilter.Proofs.CommandLine.Order
import PathFilter.Proofs.Listing.Visit
import PathFilter.Proofs.Listing.Preorder
import PathFilter.Proofs.Chain.Session
import PathFilter.Proofs.Chain.Clearing
import PathFilter.Proofs.Chain.Edits
import PathFilter.Proofs.Chain.Seclusion
import PathFilter.Proofs.Chain.Purposes
import PathFilter.Proofs.Chain.Printed
import PathFilter.Proofs.Directive.Signs
import PathFilter.Proofs.Directive.Words
import PathFilter.Proofs.Glob.Expression
import PathFilter.Proofs.Rule.Grammar
import PathFilter.Proofs.CommandLine.Diagnostics
import PathFilter.Proofs.Chain.Opened
import PathFilter.Proofs.FileTree.Replacing
import PathFilter.Proofs.Listing.Course
import PathFilter.Proofs.CommandLine.Replacement
import PathFilter.Proofs.Rule.Canonical
import PathFilter.Proofs.Rule.Equality
import PathFilter.Proofs.Listing.OnDemand
import PathFilter.Proofs.CommandLine.Observation
import PathFilter.Proofs.Listing.Stopping
import PathFilter.Proofs.CommandLine.Status
import PathFilter.Proofs.Glob.Matching
import PathFilter.Proofs.Glob.Quoting
import PathFilter.Proofs.Rule.WholeNames
import PathFilter.Proofs.Rule.Listed
import PathFilter.Proofs.Rule.Slashes
import PathFilter.Proofs.Glob.Slashes
import PathFilter.Proofs.Chain.Entry
import PathFilter.Proofs.Chain.Verbatim
import PathFilter.Proofs.Rule.Precedence
import PathFilter.Proofs.Chain.Moments
import PathFilter.Proofs.Chain.Declaration
import PathFilter.Proofs.Chain.Inheritance
import PathFilter.Proofs.Chain.OwnFile
import PathFilter.Proofs.Chain.Traced
import PathFilter.Proofs.Chain.ErrorPlace
import PathFilter.Proofs.Chain.Reported
import PathFilter.Proofs.Verbosity.FlagLists
import PathFilter.Proofs.CommandLine.RuleCount
