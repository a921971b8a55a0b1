import Baseline.Command.Arguments

/-!
# Help

What the program says about itself and its commands.
-/

namespace Baseline.Command

/-- What a topic is about, in one line. -/
def Topic.about : Topic → String
  | program => "Approve pending comparisons and clean up abandoned .approved. files"
  | accept =>
    "Move every received file listed in the failed-comparison log over its approved file"
  | sweep => "Delete approved files not touched by the last test run"
  | settings => "Print configuration values"
  | help => "Print this message or the help of the given subcommand(s)"

/-- How a topic is written on the command line. -/
def Topic.usage : Topic → String
  | program => "approvals [COMMAND]"
  | accept => "approvals approve-all"
  | sweep => "approvals remove-abandoned [OPTIONS]"
  | settings => "approvals print-config"
  | help => "approvals help [COMMAND]..."

/-- The option that asks for help, on one line. -/
def helpOption : List String := ["Options:", "  -h, --help  Print help"]

/-- The option that asks for help, with room for more. -/
def longHelpOption : List String := ["Options:", "  -h, --help", "          Print help"]

/-- The list of commands. -/
def commandList : List String :=
  ["Commands:",
    "  approve-all       " ++ Topic.accept.about,
    "  remove-abandoned  " ++ Topic.sweep.about,
    "  print-config      " ++ Topic.settings.about,
    "  help              " ++ Topic.help.about]

/-- The options of a sweep. -/
def sweepOptionList : List String :=
  ["Options:",
    "      --mode <MODE>  How to handle unused files (defaults to `default_mode` from the " ++
      "configuration) [possible values: delete, prompt, dry-run]",
    "      --dry-run      Only list unused files",
    "  -y, --yes          Delete unused files without asking",
    "  -h, --help         Print help"]

/-- The sections of the help on a topic. -/
def Topic.sections : Topic → List (List String)
  | program => [commandList, helpOption]
  | accept => [helpOption]
  | sweep => [sweepOptionList]
  | settings => [helpOption]
  | help => [["Arguments:", "  [COMMAND]...  Print help for the subcommand(s)"]]

/-- Lines of text. -/
def textOfLines (lines : List String) : String := String.join (lines.map (· ++ "\n"))

/-- A help text: what it is about, how it is written, and sections, with a blank line between each
two. -/
def helpText (topic : Topic) (sections : List (List String)) : String :=
  let parts := [topic.about] :: ["Usage: " ++ topic.usage] :: sections
  textOfLines ([""].intercalate parts)

/-- The help on a topic. -/
def Topic.text (topic : Topic) : String := helpText topic topic.sections

/-- What a user sees who asks for nothing. -/
def overview : String := helpText .program [commandList, longHelpOption]

end Baseline.Command
