import Flowplan.Action.Registry
import Flowplan.Hosts

namespace Flowplan

open Flowplan.Action (Definition Registry)

/-- A question to one of the collaborators. -/
inductive Call where
  | allows (url : String)
  | resolve (slug : String)
deriving DecidableEq, Repr

/-- The ways in which a collaborator fails to answer. -/
inductive OutageKind where
  | connection
  | value
  | runtime
  | key
deriving DecidableEq, Repr

structure Outage where
  kind : OutageKind
  detail : String
deriving DecidableEq, Repr

/-- A missing key is shown in quotes. -/
def Outage.message (o : Outage) : String :=
  match o.kind with
  | .key => Text.quoted o.detail
  | _ => o.detail

/-- An organization and the collaborators that answer for it. An answer may depend on the calls
made before it. -/
structure Context where
  org : String
  allows : List Call → String → Except Outage Bool
  resolve : List Call → String → Except Outage (Option Definition)

namespace Context

/-- Collaborators that answer from a list of hosts and a registry. -/
def ofTables (org : String) (hosts : Hosts) (registry : Registry) : Context where
  org := org
  allows _ url := .ok (hosts.allows url)
  resolve _ slug := .ok (registry.lookUp slug org)

/-- One answer for every URL. -/
def answering (answer : Bool) (c : Context) : Context := { c with allows := fun _ _ => .ok answer }

def Call.isAllows : Call → Bool
  | .allows _ => true
  | .resolve _ => false

/-- The question about a URL with this number, counted from zero, is not answered. -/
def withoutHosts (number : Nat) (o : Outage) (c : Context) : Context :=
  { c with allows := fun history url =>
      if history.countP Call.isAllows = number then .error o else c.allows history url }

/-- The question about an action with this number, counted from zero, is not answered. -/
def withoutRegistry (number : Nat) (o : Outage) (c : Context) : Context :=
  { c with resolve := fun history slug =>
      if history.countP (!Call.isAllows ·) = number then .error o else c.resolve history slug }

/-- The collaborators as they answer once some calls have been made. -/
def after (c : Context) (calls : List Call) : Context where
  org := c.org
  allows history := c.allows (calls ++ history)
  resolve history := c.resolve (calls ++ history)

/-- Whether a question is answered with yes: the URL may be called, the action exists. -/
def answer (c : Context) (history : List Call) : Call → Except Outage Bool
  | .allows url => c.allows history url
  | .resolve slug => (c.resolve history slug).map Option.isSome

end Context
end Flowplan
