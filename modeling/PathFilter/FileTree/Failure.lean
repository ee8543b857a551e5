/-!
# Failures of reading a file

The reasons why a file cannot be opened or read, with the words and numbers that the system gives
them. All of them come from the tree or from the path: a tree has no permissions, so nobody is
denied a file or a directory, and no device that could fail while it is read.

## Main definitions

* `ReadFailure`: the reasons
* `ReadFailure.message`: their wording
-/

namespace PathFilter

/-- Why a file cannot be opened or read. -/
inductive ReadFailure where
  /-- A name of the path does not exist. -/
  | notFound
  /-- A name before the last one, or before a slash, is no directory. -/
  | notDirectory
  /-- The path leads to a directory. -/
  | isDirectory
  /-- A name or the whole path is too long. -/
  | nameTooLong
  /-- The path leads over too many symbolic links. -/
  | tooManyLinks
  /-- The path holds a NUL character. -/
  | nulInPath
  /-- The content is not UTF-8. -/
  | notText
deriving DecidableEq, Repr

/-- The wording of a failure. -/
def ReadFailure.message : ReadFailure → String
  | notFound => "No such file or directory (os error 2)"
  | notDirectory => "Not a directory (os error 20)"
  | isDirectory => "Is a directory (os error 21)"
  | nameTooLong => "File name too long (os error 36)"
  | tooManyLinks => "Too many levels of symbolic links (os error 40)"
  | nulInPath => "file name contained an unexpected NUL byte"
  | notText => "stream did not contain valid UTF-8"

end PathFilter
