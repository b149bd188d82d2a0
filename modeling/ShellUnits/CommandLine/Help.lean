/-!
The texts that the command line answers requests with.
-/

namespace ShellUnits.CommandLine

def versionText : String := "unitsh 0.1.0\n"

def usageErrorText : String := "usage"

/-- Each option on one line. -/
def shortHelpText : String :=
  "compile nested command units into shell functions

Usage: unitsh [OPTIONS]

Options:
  -C, --directory <DIRECTORY>   Change the work directory
  -f, --file <FILE>             Load units from this file [default: unitsh.yml]
  -d, --dry-run                 Print the processed document instead of shell functions
  -F, --output-format <FORMAT>  Format of the --dry-run output [default: yaml] [possible values: json, yaml]
  -h, --help                    Print help (see more with '--help')
  -V, --version                 Print version
"

/-- A line between the paragraphs about an option. -/
def blankHelpLine : String := String.ofList (List.replicate 10 ' ') ++ "\n"

/-- Each option with all that is to be said about it. -/
def longHelpText : String :=
  "compile nested command units into shell functions

Usage: unitsh [OPTIONS]

Options:
  -C, --directory <DIRECTORY>
          Change the work directory
" ++ blankHelpLine ++
  "          Can be specified multiple times. Note that all paths on the way to the final path must exist.
" ++ blankHelpLine ++
  "          This is equivalent to running \x7b cd <directory>; unitsh ... \x7d

  -f, --file <FILE>
          Load units from this file
" ++ blankHelpLine ++
  "          [default: unitsh.yml]

  -d, --dry-run
          Print the processed document instead of shell functions

  -F, --output-format <FORMAT>
          Format of the --dry-run output
" ++ blankHelpLine ++
  "          [default: yaml]
          [possible values: json, yaml]

  -h, --help
          Print help (see a summary with '-h')

  -V, --version
          Print version
"

end ShellUnits.CommandLine
