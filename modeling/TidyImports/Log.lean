/-! Log levels and the log of a run. A sink keeps the records at or above its threshold, or keeps
nothing. -/
namespace TidyImports

inductive LogLevel
  | debug
  | info
  | warn
  | error
  deriving DecidableEq, Repr

namespace LogLevel

def rank : LogLevel → Nat
  | .debug => 0
  | .info => 1
  | .warn => 2
  | .error => 3

def label : LogLevel → String
  | .debug => "DEBUG"
  | .info => "INFO"
  | .warn => "WARN"
  | .error => "ERROR"

def all : List LogLevel := [.debug, .info, .warn, .error]

end LogLevel

inductive LogSink
  | kept (threshold : LogLevel)
  | printed (threshold : LogLevel)
  | discarded
  deriving DecidableEq, Repr

namespace LogSink

def threshold : LogSink → LogLevel
  | .kept level => level
  | .printed level => level
  | .discarded => .error

def enables (sink : LogSink) (level : LogLevel) : Bool := sink.threshold.rank ≤ level.rank

end LogSink

structure LogRecord where
  level : LogLevel
  message : String
  deriving DecidableEq, Repr

structure Log where
  sink : LogSink
  records : List LogRecord

namespace Log

def new (sink : LogSink) : Log := ⟨sink, []⟩

def add (log : Log) (level : LogLevel) (message : String) : Log :=
  match log.sink with
  | .kept threshold =>
    if threshold.rank ≤ level.rank then { log with records := log.records ++ [⟨level, message⟩] }
    else log
  | _ => log

def messages (log : Log) (level : LogLevel) : List String :=
  (log.records.filter fun r => r.level == level).map LogRecord.message

end Log

end TidyImports
