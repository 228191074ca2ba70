import Flowplan.Url.Basic

namespace Flowplan

def Url.invalid : String := "[INVALID_URL]"

/-- A URL without what may be secret in it: its scheme and host name alone. -/
def Url.redacted (s : String) : String :=
  match Url.split? s with
  | none => Url.invalid
  | some u =>
    match u.hostname? with
    | none => Url.invalid
    | some host => if u.scheme.isEmpty then Url.invalid else u.scheme ++ "://" ++ host

def redactedOrg (org : String) : String := Text.take 8 org ++ "..."

end Flowplan
