import Flowplan.Hosts
import Flowplan.Proofs.LowerCase
import Flowplan.Proofs.UrlHost
import Mathlib.Data.List.Forall2

/-!
Which URLs a list of hosts lets through. Main statement: a URL may be called exactly where the labels
of a host of the list end those of its host name, however the hosts are listed and written.
-/

namespace Flowplan
set_option autoImplicit true

namespace Text

theorem trimmed_map (f : Char → Char) (hf : ∀ c, drop (f c) = drop c) (cs : List Char) :
    trimmed drop (cs.map f) = (trimmed drop cs).map f := by
  have hdrop : drop ∘ f = drop := funext hf
  simp only [trimmed, List.dropWhile_map, hdrop, ← List.map_reverse]

theorem intercalate_append {sep : List Char} {front back : List (List Char)} (hfront : front ≠ [])
    (hback : back ≠ []) :
    sep.intercalate (front ++ back) = sep.intercalate front ++ (sep ++ sep.intercalate back) := by
  induction front with
  | nil => exact absurd rfl hfront
  | cons l front ih =>
    cases front with
    | nil => simp [List.intercalate_cons_of_ne_nil hback]
    | cons m front =>
      have hrest := ih (List.cons_ne_nil m front)
      simp only [List.cons_append, List.intercalate_cons_cons] at hrest ⊢
      simp only [hrest, List.append_assoc]

/-- The pieces of a text end those of another exactly where it is that text or comes after one of
its separators. -/
theorem splitOn_suffix_iff {sep : Char} {cs ds : List Char} :
    ds.splitOn sep <:+ cs.splitOn sep ↔ cs = ds ∨ sep :: ds <:+ cs := by
  constructor
  · rintro ⟨front, hfront⟩
    have hcs : [sep].intercalate (cs.splitOn sep) = cs := List.intercalate_splitOn sep
    rw [← hfront] at hcs
    by_cases hnil : front = []
    · subst hnil
      rw [List.nil_append, List.intercalate_splitOn] at hcs
      exact .inl hcs.symm
    · rw [intercalate_append hnil (List.splitOn_ne_nil sep ds), List.intercalate_splitOn] at hcs
      exact .inr ⟨_, hcs⟩
  · rintro (rfl | ⟨front, rfl⟩)
    · exact List.suffix_rfl
    · rw [List.splitOn_append_cons_self]
      exact List.suffix_append _ _

end Text

namespace Url

theorem ne_empty_of_hostOf? {url name : String} (h : hostOf? url = some name) : name ≠ "" := by
  obtain ⟨p, -, -, hhost, rfl⟩ := hostOf?_eq_some_iff.1 h
  unfold lowerHost
  split
  · intro he
    have hnil := congrArg String.toList he
    simp at hnil
  · refine Unicode.lower_ne_empty fun he => hhost ?_
    simpa using congrArg String.toList he

end Url

namespace Hosts

/-- The labels of a host name, the topmost one last. -/
def labels (name : String) : List (List Char) := name.toList.splitOn '.'

/-- A host written in ASCII letters of another case and with other blanks around it. -/
def Rewritten (host other : String) : Prop := ∃ before core after before' core' after',
  host.toList = before ++ (core ++ after) ∧ other.toList = before' ++ (core' ++ after') ∧
  (∀ c ∈ before ++ after ++ before' ++ after', Unicode.isBlank c = true) ∧
  core'.map Char.toLower = core.map Char.toLower

variable {hosts others : List String} {host name url : String}

theorem covers_iff : covers host name = true ↔ labels host <:+ labels name := by
  have hdot : ("." ++ host).toList = '.' :: host.toList := by simp
  rw [labels, labels, Text.splitOn_suffix_iff, covers, Text.endsWith, hdot, Bool.or_eq_true,
    beq_iff_eq, List.isSuffixOf_iff_suffix, String.toList_inj]

theorem mem_normalized : name ∈ normalized hosts ↔
    ∃ host ∈ hosts, Text.trim host ≠ "" ∧ Unicode.lower (Text.trim host) = name := by
  simp [normalized, and_assoc]

theorem allows_iff : allows (ofList hosts) url = true ↔ ∃ name, Url.hostOf? url = some name ∧
    ∃ host ∈ hosts, Text.trim host ≠ "" ∧
      labels (Unicode.lower (Text.trim host)) <:+ labels (Unicode.lower name) := by
  unfold allows
  cases Url.hostOf? url with
  | none => simp
  | some name => simp [allowsName, ofList, mem_normalized, covers_iff, and_assoc]

theorem allows_mono (h : ∀ host ∈ hosts, host ∈ others)
    (hallows : allows (ofList hosts) url = true) : allows (ofList others) url = true := by
  obtain ⟨name, hname, host, hhost, hlabels⟩ := allows_iff.1 hallows
  exact allows_iff.2 ⟨name, hname, host, h host hhost, hlabels⟩

theorem toLower_trim_of_rewritten (h : Rewritten host other) :
    (Text.trim other).toList.map Char.toLower = (Text.trim host).toList.map Char.toLower := by
  obtain ⟨before, core, after, before', core', after', hhost, hother, hblank, hcore⟩ := h
  simp only [List.forall_mem_append] at hblank
  obtain ⟨⟨⟨hbefore, hafter⟩, hbefore'⟩, hafter'⟩ := hblank
  have htrim : Text.trimmed Unicode.isBlank host.toList = Text.trimmed Unicode.isBlank core := by
    rw [hhost]
    exact ((Text.trims_trimmed Unicode.isBlank core).widen hbefore hafter).eq_trimmed
  have htrim' : Text.trimmed Unicode.isBlank other.toList = Text.trimmed Unicode.isBlank core' := by
    rw [hother]
    exact ((Text.trims_trimmed Unicode.isBlank core').widen hbefore' hafter').eq_trimmed
  simp only [Text.trim, String.toList_ofList, htrim, htrim',
    ← Text.trimmed_map _ Unicode.isBlank_toLower, hcore]

theorem normalized_of_rewritten (h : List.Forall₂ Rewritten hosts others) :
    normalized others = normalized hosts := by
  induction h with
  | nil => rfl
  | @cons host other hosts others hrewritten more ih =>
    have htoLower := toLower_trim_of_rewritten hrewritten
    have hempty : (Text.trim other).isEmpty = (Text.trim host).isEmpty := by
      rw [Bool.eq_iff_iff, String.isEmpty_iff, String.isEmpty_iff, ← String.toList_eq_nil_iff,
        ← String.toList_eq_nil_iff, ← List.map_eq_nil_iff, htoLower, List.map_eq_nil_iff]
    simp only [normalized, List.map_cons, List.filter_cons, hempty] at ih ⊢
    cases (Text.trim host).isEmpty <;> simp [ih, Unicode.lower_eq_of_toLower htoLower]

/-- A URL may be called exactly where it is well-formed and has a host name, and the labels of a host
of the list that is not blank end the labels of that name. Neither the order nor the repetition of
hosts matters, nor the case of their letters nor the blanks around them; more hosts let more through.
The host name is the host that is written between the user information and the port, and neither these
nor the path, the query and the fragment count. -/
theorem allows_iff_labels (hosts : List String) (url : String) :
    (allows (ofList hosts) url = true ↔ ∃ name, Url.hostOf? url = some name ∧ name ≠ "" ∧
      ∃ host ∈ hosts, Text.trim host ≠ "" ∧
        labels (Unicode.lower (Text.trim host)) <:+ labels (Unicode.lower name)) ∧
    (Url.split? url = none → allows (ofList hosts) url = false) ∧
    (∀ others, (∀ host, host ∈ others ↔ host ∈ hosts) →
      allows (ofList others) url = allows (ofList hosts) url) ∧
    (∀ others, (∀ host ∈ hosts, host ∈ others) →
      allows (ofList hosts) url = true → allows (ofList others) url = true) ∧
    (∀ others, List.Forall₂ Rewritten hosts others →
      allows (ofList others) url = allows (ofList hosts) url) ∧
    ∀ name, Url.hostOf? url = some name ↔ ∃ p : Url.Parts, Url.cleaned url = p.text ∧
      Url.authorityFits p.authority = true ∧ p.host ≠ [] ∧ Url.lowerHost p.host = name := by
  refine ⟨?_, ?_, ?_, fun others h => allows_mono h, ?_, fun name => Url.hostOf?_eq_some_iff⟩
  · rw [allows_iff]
    constructor
    · rintro ⟨name, hname, hhost⟩
      exact ⟨name, hname, Url.ne_empty_of_hostOf? hname, hhost⟩
    · rintro ⟨name, hname, -, hhost⟩
      exact ⟨name, hname, hhost⟩
  · intro hsplit
    rw [allows, Url.hostOf?, hsplit, Option.bind_none]
  · intro others hsame
    rw [Bool.eq_iff_iff]
    exact ⟨allows_mono fun host => (hsame host).1, allows_mono fun host => (hsame host).2⟩
  · intro others hrewritten
    rw [ofList, ofList, normalized_of_rewritten hrewritten]

/-- A host below a listed one, behind user information that names another. -/
def subdomainUrl : String := "https://u@evil.org:x@api.Example.com:80/p?q#f"

theorem rewritten_example :
    List.Forall₂ Rewritten ["EXAMPLE.com", " "] [" example.COM\t", ""] := by
  refine .cons ⟨[], "EXAMPLE.com".toList, [], [' '], "example.COM".toList, ['\t'], ?_⟩
    (.cons ⟨[' '], [], [], [], [], [], ?_⟩ .nil)
  · exact ⟨rfl, rfl, List.all_eq_true.1 (by decide), by decide⟩
  · exact ⟨rfl, rfl, List.all_eq_true.1 (by decide), rfl⟩

theorem allows_subdomain :
    Url.split? "http://[x" = none ∧ allows (ofList ["EXAMPLE.com", " "]) "http://[x" = false ∧
    allows (ofList ["EXAMPLE.com", " "]) subdomainUrl = true ∧
    allows (ofList [" ", "EXAMPLE.com", " "]) subdomainUrl = true ∧
    allows (ofList ["other.org", " ", "EXAMPLE.com"]) subdomainUrl = true ∧
    allows (ofList [" example.COM\t", ""]) subdomainUrl = true := by
  have hsplit : Url.split? "http://[x" = none := by decide
  have hallows : allows (ofList ["EXAMPLE.com", " "]) subdomainUrl = true := by decide
  obtain ⟨-, -, horder, hmono, hrewritten, -⟩ :=
    allows_iff_labels ["EXAMPLE.com", " "] subdomainUrl
  have hrefused := (allows_iff_labels ["EXAMPLE.com", " "] "http://[x").2.1 hsplit
  refine ⟨hsplit, hrefused, hallows, ?_, ?_, ?_⟩
  · rw [horder _ (by simp), hallows]
  · exact hmono _ (by simp) hallows
  · rw [hrewritten _ rewritten_example, hallows]

example : allows (ofList ["example.com"]) "https://example.com@notexample.com" = false := by decide

end Hosts
end Flowplan
