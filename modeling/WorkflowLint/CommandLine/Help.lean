import WorkflowLint.CommandLine.Arguments
/-!
# Help texts

What the program says about itself.
-/

namespace WorkflowLint

namespace CommandLine

def programName : String := "flowlint"

def versionText : String := programName ++ " 0.0.0\n"

def Topic.text : Topic → String
  | .program => "\n".intercalate [
      "Live actionlint diagnostics for GitHub Actions workflows",
      "",
      "Usage: flowlint [COMMAND]",
      "",
      "Commands:",
      "  serve  Run the language server on stdin/stdout (the default)",
      "  check  Lint workflow files once and print findings",
      "  help   Print this message or the help of the given subcommand(s)",
      "",
      "Options:",
      "  -h, --help     Print help",
      "  -V, --version  Print version",
      ""]
  | .serve => "\n".intercalate [
      "Run the language server on stdin/stdout (the default)",
      "",
      "Usage: flowlint serve",
      "",
      "Options:",
      "  -h, --help  Print help",
      ""]
  | .check => "\n".intercalate [
      "Lint workflow files once and print findings",
      "",
      "Usage: flowlint check [OPTIONS] <FILE>...",
      "",
      "Arguments:",
      "  <FILE>...  Workflow files to lint",
      "",
      "Options:",
      "      --trusted     Honor executable, helper and extra-argument settings from the workspace config",
      "      --root <DIR>  Workspace root [default: current directory]",
      "  -h, --help        Print help",
      ""]
  | .help => "\n".intercalate [
      "Print this message or the help of the given subcommand(s)",
      "",
      "Usage: flowlint help [COMMAND]...",
      "",
      "Arguments:",
      "  [COMMAND]...  Print help for the subcommand(s)",
      ""]

end CommandLine

end WorkflowLint
