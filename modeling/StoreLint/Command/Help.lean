import StoreLint.Command.Arguments

/-!
# Help texts

What the program says about itself and its commands.
-/

namespace StoreLint

def programName : String := "vuexlint"

def programVersion : String := "0.4.0"

def versionText : String := programName ++ " " ++ programVersion ++ "\n"

/-- Lines with a line end after each. -/
def unlines (lines : List String) : String := String.join (lines.map fun line => line ++ "\n")

def Usage.summary : Usage → String
  | .displayHelp _ => "help was asked for"
  | .displayVersion => "the version was asked for"
  | .invalidSubcommand => "unrecognized subcommand"
  | .invalidValue => "invalid value"
  | .unknownArgument => "unexpected argument found"
  | .argumentConflict => "the argument cannot be used multiple times"
  | .tooManyValues => "unexpected value for an argument found"

/-- Where to find out how the program is used. -/
def usageHint : String := "For more information, try '--help'.
"

def HelpTopic.text : HelpTopic → String
  | .program => unlines
      ["A fast CLI tool for checking Vuex store and Vue component definitions",
       "",
       "Usage: vuexlint [COMMAND]",
       "",
       "Commands:",
       "  check  Check Vuex stores and Vue components for rule violations",
       "  init   Initialize a new .vuexlintrc.json configuration file",
       "  rules  List the available rules and their messages",
       "  help   Print this message or the help of the given subcommand(s)",
       "",
       "Options:",
       "  -h, --help     Print help",
       "  -V, --version  Print version"]
  | .check => unlines
      ["Check Vuex stores and Vue components for rule violations",
       "",
       "Usage: vuexlint check [OPTIONS] [RULES]...",
       "",
       "Arguments:",
       "  [RULES]...  Rules to run (default: all) [possible values: require-jsdoc, " ++
         "no-root-store-assets, no-root-store-calls]",
       "",
       "Options:",
       "      --source-root <SOURCE_ROOT>  Source code root directory " ++
         "(default: current directory)",
       "  -v, --verbose                    Enable verbose output",
       "  -h, --help                       Print help"]
  | .init => unlines
      ["Initialize a new .vuexlintrc.json configuration file",
       "",
       "Usage: vuexlint init",
       "",
       "Options:",
       "  -h, --help  Print help"]
  | .rules => unlines
      ["List the available rules and their messages",
       "",
       "Usage: vuexlint rules [OPTIONS]",
       "",
       "Options:",
       "      --json  Print rules as JSON, including their option schemas",
       "  -h, --help  Print help"]
  | .help => unlines
      ["Print this message or the help of the given subcommand(s)",
       "",
       "Usage: vuexlint help [COMMAND]...",
       "",
       "Arguments:",
       "  [COMMAND]...  Print help for the subcommand(s)"]

end StoreLint
