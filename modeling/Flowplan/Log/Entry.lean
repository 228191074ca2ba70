namespace Flowplan

inductive Severity where
  | debug
  | info
  | warning
  | error
  | critical
deriving DecidableEq, Repr

def Severity.name : Severity → String
  | .debug => "DEBUG"
  | .info => "INFO"
  | .warning => "WARNING"
  | .error => "ERROR"
  | .critical => "CRITICAL"

/-- One message of a logger. -/
structure LogEntry where
  logger : String
  severity : Severity
  message : String
deriving DecidableEq, Repr

end Flowplan
