import Landscape.Error

/-!
# Log lines

Lines about the progress of a run, each with a level and the part of the program that it comes from.
Lines below the level in force are left out.
-/

namespace Landscape.Command

/-- How much a log line matters. -/
inductive LogLevel where
  | debug
  | info
  | warning
  | error
  | critical
  deriving DecidableEq, Repr

namespace LogLevel

/-- The name of a level in log lines. -/
def name : LogLevel → String
  | .debug => "DEBUG"
  | .info => "INFO"
  | .warning => "WARNING"
  | .error => "ERROR"
  | .critical => "CRITICAL"

/-- The place of a level in the order of levels. -/
def rank : LogLevel → Nat
  | .debug => 0
  | .info => 1
  | .warning => 2
  | .error => 3
  | .critical => 4

/-- The names by which levels are set. -/
def settings : List (Text × LogLevel) :=
  [("NOTSET", .debug), ("DEBUG", .debug), ("INFO", .info), ("WARN", .warning),
   ("WARNING", .warning), ("ERROR", .error), ("CRITICAL", .critical), ("FATAL", .critical)]

/-- How a line is laid out unless something else is asked for. -/
def usualLayout : String := "%(levelname)s:%(name)s:%(message)s"

/-- The styles in which lines can be laid out, as a message shows them. -/
def shownStyles : String :=
  "\x7b'%': (<class 'logging.PercentStyle'>, '" ++ usualLayout ++ "'), "
    ++ "'\x7b': (<class 'logging.StrFormatStyle'>, "
    ++ "'\x7blevelname\x7d:\x7bname\x7d:\x7bmessage\x7d'), "
    ++ "'$': (<class 'logging.StringTemplateStyle'>, "
    ++ "'$\x7blevelname\x7d:$\x7bname\x7d:$\x7bmessage\x7d')\x7d"

/--
The level of a name; an unknown name is the middle way. Two names belong to something else, which is
refused as a level.
-/
def ofName (name : Text) : Except Error LogLevel :=
  if name == "BASIC_FORMAT" then .error (.logLevelName usualLayout)
  else if name == "_STYLES" then .error (.logLevelType shownStyles)
  else .ok ((settings.lookup name).getD .info)

end LogLevel

/-- The parts of the program that write log lines. -/
inductive Source where
  | description
  | interchange
  | model
  | layout
  | detection
  | drawing
  | command
  | root
  deriving DecidableEq, Repr

/-- The name of a part in log lines. -/
def Source.name : Source → String
  | .description => "archgraph.dsl.parser"
  | .interchange => "archgraph.core.interchange"
  | .model => "archgraph.core.graph_model"
  | .layout => "archgraph.layout.optimizer"
  | .detection => "AntiPatternDetector"
  | .drawing => "archgraph.visualization.plot"
  | .command => "archgraph.cli"
  | .root => "root"

/-- A log line, unless its level is below the one in force. -/
def logLine (inForce level : LogLevel) (source : Source) (message : Text) : Text :=
  if level.rank < inForce.rank then []
  else "[" ++ level.name ++ "] " ++ source.name ++ ": " ++ message ++ "\n"

end Landscape.Command
