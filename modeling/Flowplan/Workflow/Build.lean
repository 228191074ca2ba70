import Flowplan.Digest.NamedId
import Flowplan.Json.Printer
import Flowplan.Settings.Basic
import Flowplan.Template
import Flowplan.Workflow.Node
import Flowplan.Workflow.Obstacle

namespace Flowplan

open Flowplan.Json

/-- The number of a node with at least three digits. -/
def nodeId (index : Int) : String := "node_" ++ Text.zeroPadded 3 index

def isNameChar (c : Char) : Bool := c.isAlphanum || c == '_'

/-- A name with an underscore for each unsafe character, cut to a length. -/
def nodeName (settings : Settings) (name : String) : String :=
  Text.cut settings.maxNodeNameLength (name.map fun c => if isNameChar c then c else '_')

namespace Operator

/-- The operation of a node that compares in this way. -/
def operation? : Operator → Option String
  | .equals => some "equal"
  | .contains => some "contains"
  | .gt => some "larger"
  | .lt => some "smaller"
  | .regex => some "regex"
  | .other _ => none

end Operator

/-- A value that can be looked up by, as lists and objects cannot. -/
def Json.isKey : Json → Bool
  | .arr _ => false
  | .obj _ => false
  | _ => true

namespace Node

/-- The parameters of a comparison; the step is the one to blame for an operator that no node
has. -/
def condition (c : Condition) (step : Step) : Except Obstacle Json :=
  match c.op.operation? with
  | some operation => .ok (.obj [("value1", .str (Template.data c.field)),
      ("operation", .str operation), ("value2", c.value)])
  | none =>
    let op := c.op.toJson
    if op.isKey then .error (.refusal (.unsupportedOperator op step))
    else .error (.breakdown (.unusableOperator op))

/-- A node whose identifier has the right form. -/
def checked (n : Node) : Except Obstacle Node :=
  if isId n.id then .ok n
  else .error (.breakdown (.badNode [⟨[.name "id"], .pattern idPattern⟩]))

def signatureOptions (settings : Settings) (signed : Bool) : Object :=
  if signed then
    [("authentication", .str "headerAuth"),
      ("headerAuth", .obj [("name", .str settings.webhookSignatureHeader),
        ("value", .str ("=" ++ Template.secret settings.webhookSecretVariable))])]
  else []

/-- The identifier of a webhook, the same whenever the same plan is compiled. -/
def webhookIdOf (planName id path : String) : String :=
  "webhook_" ++
    Text.take 13 (Digest.namedId Digest.urlNamespace (planName ++ "|" ++ id ++ "|" ++ path))

def webhook (settings : Settings) (planName id path : String) (signed : Bool) : Node where
  id := id
  name := nodeName settings ("Webhook_" ++ path)
  type := "n8n-nodes-base.webhook"
  typeVersion := 1
  position := (0, 0)
  parameters := [("path", .str path), ("httpMethod", .str "POST"),
    ("responseMode", .str "responseNode"),
    ("options", .obj (("noResponseBody", .bool false) :: signatureOptions settings signed))]
  webhookId := some (webhookIdOf planName id path)

def conditions (c : Json) : Json := .obj [("string", .arr [c])]

def filter (settings : Settings) (id field : String) (c : Json) : Node where
  id := id
  name := nodeName settings ("Filter_" ++ field)
  type := "n8n-nodes-base.if"
  typeVersion := 1
  position := (0, 0)
  parameters := [("conditions", conditions c)]
  webhookId := none

/-- The rules of a branch, each leading to the output with its number. -/
def rulesFrom (step : Step) (i : Nat) : List (Case Step) → Except Obstacle (List Json)
  | [] => .ok []
  | c :: rest => do
    let here ← condition c.condition step
    let others ← rulesFrom step (i + 1) rest
    return .obj [("conditions", conditions here), ("output", .int i)] :: others

/-- The output of the else comes after those of the cases; without an else there is none. -/
def fallbackOutput (cases : Nat) (otherwise : Member (List Step)) : Int :=
  match otherwise with
  | .given _ => cases
  | _ => -1

def switch (settings : Settings) (id : String) (rules : List Json) (fallback : Int) : Node where
  id := id
  name := nodeName settings "Branch_Switch"
  type := "n8n-nodes-base.switch"
  typeVersion := 1
  position := (0, 0)
  parameters := [("dataType", .str "string"), ("value1", .str "=\x7b\x7b $json \x7d\x7d"),
    ("rules", .obj [("values", .arr rules)]), ("fallbackOutput", .int fallback)]
  webhookId := none

def slackLabel (channel : String) : String :=
  String.ofList (channel.toList.filter fun c => c != '#' && c != '@')

def slack (settings : Settings) (id channel text : String) : Node where
  id := id
  name := nodeName settings ("Slack_" ++ slackLabel channel)
  type := "n8n-nodes-base.slack"
  typeVersion := 1
  position := (0, 0)
  parameters := [("operation", .str "postMessage"), ("channel", .str channel),
    ("text", .str (Template.compile text)), ("otherOptions", .obj []),
    ("authentication", .str "oAuth2")]
  webhookId := none

def headerOptions : Option Object → Object
  | none => []
  | some headers => [("headers", .arr (headers.map fun (name, v) =>
      .obj [("name", .str name), ("value", Template.compileValue v)]))]

def jsonBody (body : Object) : String := (Template.compileValue (.obj body)).print .indented

def bodyOptions : Option Object → Object
  | none => []
  | some body => [("bodyContentType", .str "json"), ("jsonBody", .str (jsonBody body))]

/-- The parameters of a request; headers and body are written where they are given. -/
def requestParameters (method url : String) (headers body : Option Object) : Object :=
  [("method", .str (Unicode.upper method)), ("url", .str url), ("authentication", .str "none"),
    ("options", .obj (("response", .obj [("fullResponse", .bool false)]) ::
      (headerOptions headers ++ bodyOptions body)))]

def request (settings : Settings) (id label method url : String) (headers body : Option Object) :
    Node where
  id := id
  name := nodeName settings label
  type := "n8n-nodes-base.httpRequest"
  typeVersion := 4
  position := (0, 0)
  parameters := requestParameters method url headers body
  webhookId := none

def hostLabel (url : String) : String := "HTTP_" ++ (Url.hostOf? url).getD "unknown"

/-- The body of an action's request: its own entries, with the values of the input for equal keys,
then what the input adds. -/
def actionBody (own input : Option Object) : Option Object :=
  match own, input with
  | none, none => none
  | own, input => some (Table.merge (own.getD []) (input.getD []))

end Node
end Flowplan
