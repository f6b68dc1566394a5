import Rustkube.Lib.Json
import Rustkube.Lib.Pattern

namespace Rustkube.Rbac

open Json Pattern List Value

/-- What an authorization request asks for. -/
structure AuthorizationRequest where
  verb : String
  resource : String
  subresource : Option String
  apiGroup : String
  ns : Option String
  name : Option String
deriving DecidableEq

/-- The entries of a list field of a rule. A field that is missing or not a list has none. -/
def entries (rule : Value) (field : String) : List Value := rule[field].asArray?.getD []

/-- An entry as `rule_matches` reads it: one that is not a string reads as the empty string. -/
def entryText (entry : Value) : String := entry.asStr?.getD ""

/-- `resource/subresource`, as the rules write it. -/
def AuthorizationRequest.target (request : AuthorizationRequest) : String :=
  match request.subresource with
  | some sub => request.resource ++ "/" ++ sub
  | none => request.resource

/-- Absent verbs are not a constraint here, unlike absent groups or resources. -/
def verbsMatch (rule : Value) (verb : String) : Bool :=
  match rule["verbs"].asArray? with
  | some verbs => verbs.any fun entry => wordAccepts (entryText entry) verb
  | none => true

/-- A request that names no object passes whatever names the rule lists. -/
def resourceNamesMatch (rule : Value) (name : Option String) : Bool :=
  match rule["resourceNames"].asArray? with
  | some names =>
    if names.isEmpty then true
    else match name with
      | some name => names.any fun entry => entry.asStr? == some name
      | none => true
  | none => true

def ruleMatches (rule : Value) (request : AuthorizationRequest) : Bool :=
  let apiGroups := entries rule "apiGroups"
  let resources := entries rule "resources"
  if apiGroups.isEmpty || resources.isEmpty then false
  else
    apiGroups.any (fun entry => wordAccepts (entryText entry) request.apiGroup) &&
    resources.any (fun entry => globAccepts (entryText entry) request.target) &&
    verbsMatch rule request.verb &&
    resourceNamesMatch rule request.name

def nonResourceRuleMatches (rule : Value) (path verb : String) : Bool :=
  let urls := entries rule "nonResourceURLs"
  let verbs := entries rule "verbs"
  if urls.isEmpty || verbs.isEmpty then false
  else
    verbs.any (fun entry => entry.asStr? == some "*" || entry.asStr? == some verb) &&
    urls.any (fun entry => globAccepts (entryText entry) path)

/-- `rules.iter().any(..)`, the way a role's rules permit a request. -/
def permits (rules : List Value) (request : AuthorizationRequest) : Bool :=
  rules.any fun rule => ruleMatches rule request

def permitsUrl (rules : List Value) (path verb : String) : Bool :=
  rules.any fun rule => nonResourceRuleMatches rule path verb

/-- The object names a rule reaches. `nameless` is what is left of a name list without a single
string in it: no name passes it, a request without a name does. -/
inductive NameScope where
  | any
  | nameless
  | named (name : String)
deriving DecidableEq

namespace NameScope

def accepts : NameScope → Option String → Bool
  | any, _ => true
  | nameless, name => name.isNone
  | named _, none => true
  | named listed, some name => listed == name

def covers : NameScope → NameScope → Bool
  | any, _ => true
  | nameless, nameless => true
  | named _, nameless => true
  | named wide, named narrow => wide == narrow
  | _, _ => false

def listed : NameScope → Option String
  | named name => some name
  | _ => none

def probe (wides : List NameScope) : NameScope → Option String
  | any => some (Pattern.fresh (wides.filterMap listed))
  | nameless => none
  | named name => some name

theorem probe_covers (narrow : NameScope) (wides : List NameScope) (wide : NameScope)
    (member : wide ∈ wides) (accepted : accepts wide (probe wides narrow) = true) :
    covers wide narrow = true := by
  cases narrow with
  | any =>
    cases wide with
    | any => rfl
    | nameless => exact absurd accepted (by simp [accepts, probe])
    | named name =>
      have same : name = fresh (wides.filterMap listed) := by
        simpa [accepts, probe] using accepted
      have inside : name ∈ wides.filterMap listed := mem_filterMap.mpr ⟨named name, member, rfl⟩
      exact absurd (same ▸ inside) (fresh_not_mem _)
  | nameless => cases wide <;> rfl
  | named name => cases wide <;> simp_all [accepts, probe, covers]

def language : Language NameScope (Option String) where
  accepts := accepts
  covers := covers
  sound wide narrow name covering accepted := by
    cases wide <;> cases narrow <;> cases name <;> simp_all [covers, accepts]
  probe narrow wides := by
    refine ⟨probe wides narrow, ?_, fun wide => probe_covers narrow wides wide⟩
    cases narrow <;> simp [accepts, probe]

end NameScope

/-- The verbs a rule grants on resources: all of them when it lists none. -/
def verbPatterns (rule : Value) : List String :=
  match rule["verbs"].asArray? with
  | some verbs => verbs.map entryText
  | none => ["*"]

def nameScopes (rule : Value) : List NameScope :=
  match rule["resourceNames"].asArray? with
  | none => [.any]
  | some names =>
    if names.isEmpty then [.any]
    else if (names.filterMap Value.asStr?).isEmpty then [.nameless]
    else (names.filterMap Value.asStr?).map .named

/-- Group, resource, verb and names: one way a rule lets a request through. -/
abbrev Grant := String × String × String × NameScope

def grantLanguage : Language Grant (String × String × String × Option String) :=
  Pattern.word.prod (Pattern.glob.prod (Pattern.word.prod NameScope.language))

def grants (rule : Value) : List Grant :=
  ((entries rule "apiGroups").map entryText) ×ˢ ((entries rule "resources").map entryText) ×ˢ
    verbPatterns rule ×ˢ nameScopes rule

def AuthorizationRequest.coordinates (request : AuthorizationRequest) :
    String × String × String × Option String :=
  (request.apiGroup, request.target, request.verb, request.name)

section

variable (rule : Value)

include rule

theorem verbsMatch_iff (verb : String) :
    verbsMatch rule verb = true ↔ ∃ pattern ∈ verbPatterns rule, wordAccepts pattern verb =
      true := by
  unfold verbsMatch verbPatterns
  cases rule["verbs"].asArray? <;> simp [wordAccepts]

attribute [local simp] NameScope.accepts

theorem resourceNamesMatch_iff (name : Option String) :
    resourceNamesMatch rule name = true ↔ ∃ scope ∈ nameScopes rule, scope.accepts name = true := by
  unfold resourceNamesMatch nameScopes
  cases rule["resourceNames"].asArray? with
  | none => simp
  | some names =>
    dsimp only
    split_ifs with empty noText
    · simp
    · have texts : ∀ entry ∈ names, entry.asStr? = none := by simpa using noText
      cases name with
      | none => simp
      | some name =>
        simp only [any_eq_true, beq_iff_eq, mem_singleton, exists_eq_left,
          NameScope.accepts, Option.isNone_some, Bool.false_eq_true, iff_false, not_exists, not_and]
        intro entry member
        simp [texts entry member]
    · cases name with
      | none =>
        have some : names.filterMap asStr? ≠ [] := by rwa [List.isEmpty_iff] at noText
        obtain ⟨text, member⟩ := exists_mem_of_ne_nil _ some
        simp only [true_iff]
        exact ⟨.named text, mem_map_of_mem member, rfl⟩
      | some name => simp

theorem mem_grants (group resource verb : String) (scope : NameScope) :
    (group, resource, verb, scope) ∈ grants rule ↔
      group ∈ (entries rule "apiGroups").map entryText ∧
      resource ∈ (entries rule "resources").map entryText ∧
      verb ∈ verbPatterns rule ∧ scope ∈ nameScopes rule := by
  simp only [grants, SProd.sprod, pair_mem_product]

theorem ruleMatches_eq (request : AuthorizationRequest) :
    ruleMatches rule request =
      ((entries rule "apiGroups").any
        (fun entry => wordAccepts (entryText entry) request.apiGroup) &&
      (entries rule "resources").any (fun entry => globAccepts (entryText entry) request.target) &&
      verbsMatch rule request.verb && resourceNamesMatch rule request.name) := by
  unfold ruleMatches
  cases entries rule "apiGroups" <;> cases entries rule "resources" <;> simp

theorem ruleMatches_iff (request : AuthorizationRequest) :
    ruleMatches rule request = true ↔
      ∃ grant ∈ grants rule, grantLanguage.accepts grant request.coordinates = true := by
  simp only [ruleMatches_eq, Bool.and_eq_true, verbsMatch_iff, resourceNamesMatch_iff, any_eq_true]
  constructor
  · rintro ⟨⟨⟨⟨group, inGroups, groupOk⟩, resource, inResources, resourceOk⟩, verb, inVerbs,
      verbOk⟩, scope, inScopes, scopeOk⟩
    refine ⟨(entryText group, entryText resource, verb, scope), ?_, ?_⟩
    · rw [mem_grants]
      exact ⟨mem_map_of_mem inGroups, mem_map_of_mem inResources, inVerbs, inScopes⟩
    · simp only [grantLanguage, Language.prod_accepts, Bool.and_eq_true]
      exact ⟨groupOk, resourceOk, verbOk, scopeOk⟩
  · rintro ⟨⟨group, resource, verb, scope⟩, member, accepted⟩
    have ⟨inGroups, inResources, inVerbs, inScopes⟩ := (mem_grants _ _ _ _ _).mp member
    obtain ⟨groupEntry, groupMem, rfl⟩ := mem_map.mp inGroups
    obtain ⟨resourceEntry, resourceMem, rfl⟩ := mem_map.mp inResources
    simp only [grantLanguage, Language.prod_accepts, Bool.and_eq_true] at accepted
    have ⟨groupOk, resourceOk, verbOk, scopeOk⟩ := accepted
    exact ⟨⟨⟨⟨groupEntry, groupMem, groupOk⟩, resourceEntry, resourceMem, resourceOk⟩,
      verb, inVerbs, verbOk⟩, scope, inScopes, scopeOk⟩

end

theorem permits_contained_iff (owner rules : List Value) :
    (∀ request, permits rules request = true → permits owner request = true) ↔
      ∀ grant ∈ rules.flatMap grants, ∃ wide ∈ owner.flatMap grants,
        grantLanguage.covers wide grant = true := by
  rw [← Language.rules_contained_iff]
  simp only [permits, any_eq_true, ruleMatches_iff]
  constructor
  · rintro contained ⟨group, target, verb, name⟩
    exact contained ⟨verb, target, none, group, none, name⟩
  · exact fun contained request => contained request.coordinates

/-- URL and verb: one way a rule lets a request for a path through. -/
abbrev UrlGrant := String × String

def urlGrantLanguage : Language UrlGrant (String × String) := Pattern.glob.prod Pattern.word

def urlGrants (rule : Value) : List UrlGrant :=
  ((entries rule "nonResourceURLs").map entryText) ×ˢ
    ((entries rule "verbs").filterMap Value.asStr?)

theorem mem_urlGrants (rule : Value) (url verb : String) :
    (url, verb) ∈ urlGrants rule ↔ url ∈ (entries rule "nonResourceURLs").map entryText ∧
      verb ∈ (entries rule "verbs").filterMap asStr? := by
  simp only [urlGrants, SProd.sprod, pair_mem_product]

theorem nonResourceRuleMatches_iff (rule : Value) (path verb : String) :
    nonResourceRuleMatches rule path verb = true ↔
      ∃ grant ∈ urlGrants rule, urlGrantLanguage.accepts grant (path, verb) = true := by
  have unguarded : nonResourceRuleMatches rule path verb = ((entries rule "verbs").any
        (fun entry => entry.asStr? == some "*" || entry.asStr? == some verb) &&
      (entries rule "nonResourceURLs").any (fun entry => globAccepts (entryText entry) path)) := by
    unfold nonResourceRuleMatches
    cases entries rule "nonResourceURLs" <;> cases entries rule "verbs" <;> simp
  simp only [unguarded, Bool.and_eq_true, any_eq_true, Bool.or_eq_true, beq_iff_eq]
  constructor
  · rintro ⟨⟨entry, inVerbs, verbOk⟩, url, inUrls, urlOk⟩
    obtain ⟨pattern, text, accepted⟩ : ∃ pattern, entry.asStr? = some pattern ∧
        wordAccepts pattern verb = true := by
      rcases verbOk with all | same
      · exact ⟨"*", all, by simp [wordAccepts]⟩
      · exact ⟨verb, same, by simp [wordAccepts]⟩
    refine ⟨(entryText url, pattern), ?_, ?_⟩
    · rw [mem_urlGrants]
      exact ⟨mem_map_of_mem inUrls, mem_filterMap.mpr ⟨entry, inVerbs, text⟩⟩
    · simp only [urlGrantLanguage, Language.prod_accepts, Bool.and_eq_true]
      exact ⟨urlOk, accepted⟩
  · rintro ⟨⟨url, pattern⟩, member, accepted⟩
    obtain ⟨inUrls, inVerbs⟩ := (mem_urlGrants _ _ _).mp member
    obtain ⟨urlEntry, urlMem, rfl⟩ := mem_map.mp inUrls
    obtain ⟨verbEntry, verbMem, text⟩ := mem_filterMap.mp inVerbs
    simp only [urlGrantLanguage, Language.prod_accepts, Bool.and_eq_true] at accepted
    obtain ⟨urlOk, verbOk⟩ := accepted
    have patternOk : pattern = "*" ∨ pattern = verb := by
      simpa [word, wordAccepts] using verbOk
    refine ⟨⟨verbEntry, verbMem, ?_⟩, urlEntry, urlMem, urlOk⟩
    simpa [text] using patternOk

theorem permitsUrl_contained_iff (owner rules : List Value) :
    (∀ path verb, permitsUrl rules path verb = true → permitsUrl owner path verb = true) ↔
      ∀ grant ∈ rules.flatMap urlGrants, ∃ wide ∈ owner.flatMap urlGrants,
        urlGrantLanguage.covers wide grant = true := by
  rw [← Language.rules_contained_iff]
  simp only [permitsUrl, any_eq_true, nonResourceRuleMatches_iff]
  exact ⟨fun contained text => contained text.1 text.2,
    fun contained path verb => contained (path, verb)⟩

end Rustkube.Rbac
