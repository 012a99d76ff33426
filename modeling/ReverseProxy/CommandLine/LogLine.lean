import ReverseProxy.CommandLine.Manual
import ReverseProxy.Json.Printer
import ReverseProxy.Log

/-!
# Lines of the log

An event is a line in columns for people or an object for programs. The time is given, since it is
that of the writing.
-/

namespace ReverseProxy

open CommandLine (padRight)

namespace Event

def level : String := "debug"

def columns (time : String) (event : Event) : String :=
  s!"{time} [{padRight 9 level}] {padRight 30 event.message} [{event.logger}]"

def toJson (time : String) (event : Event) : Json :=
  .object
    [("event", .string event.message), ("level", .string level), ("logger", .string event.logger),
      ("timestamp", .string time)]

def line (json : Bool) (time : String) (event : Event) : String :=
  (if json then Json.Style.line.write (event.toJson time) else event.columns time) ++ "\n"

end Event

end ReverseProxy
