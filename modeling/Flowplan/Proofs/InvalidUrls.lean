import Flowplan.Proofs.AcceptedWorkflow
import Flowplan.Proofs.UrlDestination

/-!
URLs that are shown as invalid. Main statement: of these a list of hosts lets through only such as
have a host name and no scheme, so every request of a compiled document has a host name that the list
covers, and it has a scheme just if its URL is not shown as invalid.
-/

namespace Flowplan
set_option autoImplicit true

open Flowplan.Json

namespace Hosts

variable {hosts : List String} {url : String}

theorem allows_eq_true_iff : allows (ofList hosts) url = true ↔
    ∃ scheme name, Url.destination? url = some (scheme, some name) ∧
      allowsName (ofList hosts) name = true := by
  rw [allows, Url.hostOf?_eq]
  cases Url.destination? url with
  | none => simp
  | some d =>
    obtain ⟨scheme, host⟩ := d
    cases host <;> simp

theorem allows_congr {h : Hosts} {other : String}
    (hleads : Url.destination? url = Url.destination? other) : h.allows url = h.allows other := by
  rw [allows, allows, Url.hostOf?_eq, Url.hostOf?_eq, hleads]

/-- An invalid URL is let through just if it has a host name that is, and no scheme. -/
theorem allows_iff_of_invalid (h : Url.redacted url = Url.invalid) :
    allows (ofList hosts) url = true ↔
      ∃ name, Url.destination? url = some ("", some name) ∧
        allowsName (ofList hosts) name = true := by
  rw [Url.redacted_eq_invalid_iff] at h
  rw [allows_eq_true_iff]
  constructor
  · rintro ⟨scheme, name, hdestination, hname⟩
    obtain rfl := h scheme name hdestination
    exact ⟨name, hdestination, hname⟩
  · rintro ⟨name, hdestination, hname⟩
    exact ⟨"", name, hdestination, hname⟩

end Hosts

/-- The collaborator for URLs answers from a list of hosts. -/
def Context.AsksHosts (c : Context) (hosts : List String) : Prop :=
  ∀ history url, c.allows history url = .ok ((Hosts.ofList hosts).allows url)

namespace Builder

variable {b : Builder} {id url : String}

theorem Builds.get?_url (h : b.Builds id (.request method url headers body) n) :
    Table.get? n.parameters "url" = some (.str url) := by
  cases h
  rfl

theorem Renders.get?_url (h : b.Renders (.request method url headers body) n) :
    Table.get? n.parameters "url" = some (.str url) := by
  obtain ⟨m, hm, position, rfl⟩ := h
  exact hm.get?_url

end Builder

/-- The node of a request goes to a URL with a host name that the hosts cover. It has a scheme too,
unless it is one that is shown as invalid. -/
structure Node.Addressed (hosts : List String) (url : String) (n : Node) : Prop where
  verbatim : Table.get? n.parameters "url" = some (.str url)
  named : ∃ scheme name, Url.destination? url = some (scheme, some name) ∧ name ≠ "" ∧
    (Hosts.ofList hosts).allowsName name = true ∧ (scheme = "" ↔ Url.redacted url = Url.invalid)

theorem Node.addressed_of_allows (hallows : (Hosts.ofList hosts).allows url = true)
    (hurl : Table.get? n.parameters "url" = some (.str url)) : Node.Addressed hosts url n := by
  obtain ⟨scheme, name, hdestination, hname⟩ := Hosts.allows_eq_true_iff.1 hallows
  have hhost : Url.hostOf? url = some name := by
    rw [Url.hostOf?_eq, hdestination]
    rfl
  refine ⟨hurl, scheme, name, hdestination, Url.ne_empty_of_hostOf? hhost, hname, ?_⟩
  simp [Url.redacted_eq_invalid_iff, hdestination]

namespace Pipeline

/-- A URL that is shown as invalid, since it is malformed or lacks a scheme or a host name, is let
through just if it lacks the scheme alone and its host name is let through; with a scheme it is not.
So each request of a compiled document has a host name, and a scheme unless its URL is shown as
invalid. -/
theorem requests_addressed (hosts : List String) :
    (∀ url, Url.redacted url = Url.invalid →
      ((Hosts.ofList hosts).allows url = true ↔ ∃ name,
        Url.destination? url = some ("", some name) ∧
          (Hosts.ofList hosts).allowsName name = true) ∧
      ((∀ host, Url.destination? url ≠ some ("", host)) →
        (Hosts.ofList hosts).allows url = false)) ∧
    ∀ settings options context src result, context.AsksHosts hosts →
      (ofSource (full settings options context) src).outcome = .ok result →
      ∃ p, Plan.parse src = .ok (.ok p) ∧
        List.Forall₂ (fun s n => ∀ method url headers body,
            s = .request method url headers body → Node.Addressed hosts url n)
          (Step.all p.steps) result.workflow.nodes := by
  constructor
  · intro url h
    refine ⟨Hosts.allows_iff_of_invalid h, fun hscheme => Bool.eq_false_iff.2 fun hallows => ?_⟩
    obtain ⟨name, hdestination, -⟩ := (Hosts.allows_iff_of_invalid h).1 hallows
    exact hscheme _ hdestination
  · intro settings options context src result hc h
    obtain ⟨p, calls, hparse, haccepted, hcompiles⟩ := exists_accepted h
    refine ⟨p, hparse, ?_⟩
    rw [← p.steps_nestedSteps, List.forall₂_map_left_iff]
    refine ((List.forall₂_and_left _ _).2
      ⟨haccepted.exists_checks, hcompiles.forall₂_nestedSteps⟩).imp ?_
    rintro ⟨depth, s⟩ n ⟨⟨place, hchecks⟩, hn⟩ method url headers body rfl
    obtain ⟨history, hallows⟩ := hchecks.request
    rw [hc] at hallows
    exact Node.addressed_of_allows (Except.ok.inj hallows) hn.get?_url

/-- A document with a request inside a branch that goes to a host without a scheme. -/
def schemelessDocument : Json :=
  let request (url : String) : Json := .obj [("type", .str "action.http.request"),
    ("method", .str "GET"), ("url", .str url)]
  .obj [("version", .str "1"), ("name", .str "P"), ("steps", .arr [
    .obj [("type", .str "trigger.http"), ("path", .str "/in"), ("secretHmac", .bool true)],
    request "https://api.example.com/y?token=1",
    .obj [("type", .str "branch"), ("cases", .arr [.obj [
      ("when", .obj [("field", .str "a"), ("op", .str "gt"), ("value", .int 1)]),
      ("steps", .arr [request "//example.com/x"])]])]])]

/-- One host is allowed, and no action is known. -/
def exampleOnly : Context := .ofTables "org" (.ofList ["example.com"]) .empty

theorem requests_addressed_schemeless :
    (Url.redacted "//example.com/x" = Url.invalid ∧
      ∃ name, Url.destination? "//example.com/x" = some ("", some name) ∧
        (Hosts.ofList ["example.com"]).allowsName name = true) ∧
    (Url.redacted "mailto:a@example.com" = Url.invalid ∧
      (Hosts.ofList ["example.com"]).allows "mailto:a@example.com" = false) ∧
    exampleOnly.AsksHosts ["example.com"] ∧
    ∃ p result, Plan.parse (.value schemelessDocument) = .ok (.ok p) ∧
      (ofSource (full .default .default exampleOnly) (.value schemelessDocument)).outcome =
        .ok result ∧
      List.Forall₂ (fun s n => ∀ method url headers body,
          s = .request method url headers body → Node.Addressed ["example.com"] url n)
        (Step.all p.steps) result.workflow.nodes := by
  have hdependable : exampleOnly.Dependable fun _ => none := ⟨fun _ _ => rfl, fun _ _ => ⟨_, rfl⟩⟩
  obtain ⟨result, hresult⟩ : ∃ result,
      (ofSource (full .default .default exampleOnly) (.value schemelessDocument)).outcome =
        .ok result := exists_outcome_of_parse? .default hdependable (by decide +kernel)
  have hhosts : exampleOnly.AsksHosts ["example.com"] := fun _ _ => rfl
  obtain ⟨hinvalid, hcompiled⟩ := requests_addressed ["example.com"]
  obtain ⟨p, hparse, hnodes⟩ := hcompiled _ _ _ _ _ hhosts hresult
  have hhost : Url.redacted "//example.com/x" = Url.invalid := by decide +kernel
  have hmail : Url.redacted "mailto:a@example.com" = Url.invalid := by decide +kernel
  have hscheme : Url.destination? "mailto:a@example.com" = some ("mailto", none) := by
    decide +kernel
  refine ⟨⟨hhost, (hinvalid _ hhost).1.1 (by decide +kernel)⟩, ⟨hmail, ?_⟩, hhosts, p, result,
    hparse, hresult, hnodes⟩
  refine (hinvalid _ hmail).2 fun host he => ?_
  rw [hscheme] at he
  simp at he

/-- A URL without a scheme is let through although it is shown as invalid. -/
theorem invalid_host_allowed : Url.redacted "//example.com/x" = Url.invalid ∧
    (Hosts.ofList ["example.com"]).allows "//example.com/x" = true := by
  decide +kernel

end Pipeline
end Flowplan
