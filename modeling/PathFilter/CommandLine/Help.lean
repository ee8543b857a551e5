import PathFilter.CommandLine.Argument

/-!
# Help

The text that explains the command line.

## Main definitions

* `CommandLine.helpLines`: the text, line by line
* `CommandLine.misuseLines`: what is said about a faulty command line
-/

namespace PathFilter.CommandLine

/-- The text that explains the command line. -/
def helpLines : List String :=
  ["List how rsync filter rules classify every entry below ROOT.",
    "",
    "Usage: rsync-filter [OPTIONS] <ROOT>",
    "",
    "  -f, --filter <RULE>        Add a filter RULE " ++
      "('+', '-', 'P', 'R', 'merge', 'dir-merge', '!' ...).",
    "      --include <PATTERN>    Don't exclude entries matching PATTERN.",
    "      --exclude <PATTERN>    Exclude entries matching PATTERN.",
    "      --include-from <FILE>  Read include patterns from FILE.",
    "      --exclude-from <FILE>  Read exclude patterns from FILE.",
    "  -F                         Same as --filter='dir-merge /.rsync-filter'; repeat to also",
    "                             exclude the .rsync-filter files.",
    "      --delete               Also classify every entry for the deletion pass.",
    "  -v, --verbose              Increase verbosity.",
    "      --info <FLAGS>         Informational verbosity (name, skip, del, stats).",
    "      --debug <FLAGS>        Debug verbosity (filter, flist, del).",
    "      --stats                Print filter statistics after the listing.",
    "  -h, --help                 Print help.",
    "  -V, --version              Print version."]

/-- What is said about a faulty command line. -/
def misuseLines : List String :=
  ["error: the arguments are not understood", "", "For more information, try '--help'."]

end PathFilter.CommandLine
