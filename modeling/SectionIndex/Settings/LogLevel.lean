import SectionIndex.Settings.Basic

/-!
# Log levels

Which messages are logged: those whose level has at least a certain number. A level is looked up by
its name among all that the log knows by name, so a name can also lead to a text or a part of the
log, and these are no levels.

## Main definitions

* `LogItem`, `LogItem.ofName?` — what the log knows by a name.
* `LogThreshold`, `Settings.logThreshold` — from which level on messages are logged.
-/

namespace SectionIndex

/-- **What the log knows by a name:** a level, a switch that is on, a text, or a part of the log
with the words that describe it. -/
inductive LogItem
  | level (number : Nat)
  | switchedOn
  | text (content : Text)
  | part (description : Text)
  deriving DecidableEq, Repr

namespace LogItem

/-- The numbers of the levels. -/
def levels : List (Text × Nat) :=
  [("CRITICAL", 50), ("FATAL", 50), ("ERROR", 40), ("WARNING", 30), ("WARN", 30), ("INFO", 20),
   ("DEBUG", 10), ("NOTSET", 0)]

/-- The switches, all of which are on. -/
def switches : List Text :=
  ["logMultiprocessing", "logProcesses", "logThreads", "raiseExceptions"]

/-- The texts. -/
def contents : List (Text × Text) :=
  [("BASIC_FORMAT", "%(levelname)s:%(name)s:%(message)s"), ("__name__", "logging"),
   ("__package__", "logging"), ("__status__", "production"), ("__version__", "0.5.1.2"),
   ("__date__", "07 February 2010")]

/-- The parts that are classes of the log itself. -/
def classes : List Text :=
  ["BufferingFormatter", "FileHandler", "Filter", "Filterer", "Formatter", "Handler", "LogRecord",
   "Logger", "LoggerAdapter", "Manager", "NullHandler", "PercentStyle", "PlaceHolder",
   "RootLogger", "StrFormatStyle", "StreamHandler", "StringTemplateStyle", "_StderrHandler"]

/-- The description of a class. -/
def describeClass (name : Text) : Text :=
  "<class '" ++ name ++ "'>"

/-- The description of a class of the log itself. -/
def describeOwnClass (name : Text) : Text :=
  describeClass ("logging." ++ name)

/-- The other parts, with their descriptions. -/
def parts : List (Text × Text) :=
  [("GenericAlias", describeClass "types.GenericAlias"),
   ("Template", describeClass "string.Template"),
   ("__class__", describeClass "module"),
   ("_logRecordFactory", describeOwnClass "LogRecord"),
   ("_loggerClass", describeOwnClass "Logger"),
   ("lastResort", "<_StderrHandler <stderr> (WARNING)>"),
   ("_defaultLastResort", "<_StderrHandler <stderr> (WARNING)>"),
   ("atexit", "<module 'atexit' (built-in)>"),
   ("io", "<module 'io' (frozen)>"),
   ("os", "<module 'os' (frozen)>"),
   ("sys", "<module 'sys' (built-in)>"),
   ("time", "<module 'time' (built-in)>"),
   ("_levelToName",
    "\x7b50: 'CRITICAL', 40: 'ERROR', 30: 'WARNING', 20: 'INFO', 10: 'DEBUG', 0: 'NOTSET'\x7d"),
   ("_nameToLevel",
    "\x7b'CRITICAL': 50, 'FATAL': 50, 'ERROR': 40, 'WARN': 30, 'WARNING': 30, 'INFO': 20, " ++
      "'DEBUG': 10, 'NOTSET': 0\x7d"),
   ("_STYLES",
    "\x7b'%': (<class 'logging.PercentStyle'>, '%(levelname)s:%(name)s:%(message)s'), " ++
      "'\x7b': (<class 'logging.StrFormatStyle'>, " ++
      "'\x7blevelname\x7d:\x7bname\x7d:\x7bmessage\x7d'), " ++
      "'$': (<class 'logging.StringTemplateStyle'>, " ++
      "'$\x7blevelname\x7d:$\x7bname\x7d:$\x7bmessage\x7d')\x7d"),
   ("__annotations__", "\x7b\x7d")]

/-- What the log knows by a name. -/
def ofName? (name : Text) : Option LogItem :=
  if switches.contains name then some .switchedOn
  else if classes.contains name then some (.part (describeOwnClass name))
  else
    ((levels.lookup name).map .level).or
      (((contents.lookup name).map .text).or ((parts.lookup name).map .part))

end LogItem

/-- **From which level on messages are logged.** A switch that is on counts as the lowest level and
is told as what it is. -/
inductive LogThreshold
  | level (number : Nat)
  | lowest
  deriving DecidableEq, Repr

/-- The level that stands for names the log does not know. -/
def defaultLogLevel : Nat := 20

/-- The threshold of a name, or a fault if the name stands for no level. -/
def LogThreshold.ofName (name : Text) : Except Fault LogThreshold :=
  match LogItem.ofName? name with
  | none => .ok (.level defaultLogLevel)
  | some (.level number) => .ok (.level number)
  | some .switchedOn => .ok .lowest
  | some (.text content) => .error (.unknownLevel content)
  | some (.part description) => .error (.notALevel description)

/-- **The level from which on messages are logged:** the one asked for, or else the one set. -/
def Settings.logThreshold (settings : Settings) (asked : Option Text) :
    Except Fault LogThreshold :=
  LogThreshold.ofName (asked.getD (if settings.debug then "DEBUG" else settings.logLevel))

end SectionIndex
