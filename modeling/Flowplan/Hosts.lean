import Flowplan.Url.Basic

namespace Flowplan

/-- The hosts that requests may go to, in lower case and without blanks around them. -/
structure Hosts where
  names : List String
deriving DecidableEq, Repr

namespace Hosts

/-- Blank hosts are dropped. -/
def normalized (hosts : List String) : List String :=
  ((hosts.map Text.trim).filter (!·.isEmpty)).map Unicode.lower

def ofList (hosts : List String) : Hosts := ⟨normalized hosts⟩

/-- A host name is covered by a host that it equals or is below. -/
def covers (host name : String) : Bool := name == host || Text.endsWith name ("." ++ host)

def allowsName (h : Hosts) (name : String) : Bool := h.names.any (covers · (Unicode.lower name))

/-- Whether a URL may be called; without a host name it may not. -/
def allows (h : Hosts) (url : String) : Bool :=
  match Url.hostOf? url with
  | some name => h.allowsName name
  | none => false

end Hosts
end Flowplan
