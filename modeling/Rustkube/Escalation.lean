import Rustkube.Rbac

namespace Rustkube.Escalation

open Bool List Json Json.Value Rbac Pattern Text

def has (list : List String) (text : String) : Bool := list.any fun entry => wordAccepts entry text

def coversResource (o : Value) (group resource verb : String) (name : Option String) : Bool :=
  if !has (strings o["verbs"]) verb || !has (strings o["apiGroups"]) group then false
  else
    let resources := strings o["resources"]
    let resourceOk := has resources resource ||
      (Text.splitOnce resource '/').any fun (base, sub) =>
        resources.any fun entry => entry == "*/" ++ sub || entry == base ++ "/*"
    if !resourceOk then false
    else
      let names := strings o["resourceNames"]
      names.isEmpty || name.any fun name => names.contains name

def coversUrl (o : Value) (url verb : String) : Bool :=
  has (strings o["verbs"]) verb &&
    (strings o["nonResourceURLs"]).any fun entry => entry == url ||
      (Text.endsWith entry "*" && Text.startsWith url (Text.trimEndMatches entry '*'))

/-- One part of a rule that the caller does not hold. -/
inductive Missing where
  | resource (group resource : String) (name : Option String) (verb : String)
  | url (url verb : String)
deriving DecidableEq

/-- The line the refusal prints. `debug` is the quoting of a string by `{:?}`. -/
def Missing.text (debug : String → String) : Missing → String
  | .resource group target none verb =>
    "\x7bAPIGroups:[" ++ debug group ++ "], Resources:[" ++ debug target ++
      "], Verbs:[" ++ debug verb ++ "]\x7d"
  | .resource group target (some name) verb =>
    "\x7bAPIGroups:[" ++ debug group ++ "], Resources:[" ++ debug target ++
      "], ResourceNames:[" ++ debug name ++ "], Verbs:[" ++ debug verb ++ "]\x7d"
  | .url path verb => "\x7bNonResourceURLs:[" ++ debug path ++ "], Verbs:[" ++ debug verb ++ "]\x7d"

def uncoveredResources (owner : List Value) (rule : Value) : List Missing :=
  let verbs := strings rule["verbs"]
  let names := strings rule["resourceNames"]
  (strings rule["apiGroups"]).flatMap fun group =>
    (strings rule["resources"]).flatMap fun resource =>
      verbs.flatMap fun verb =>
        let held name := owner.any fun o => coversResource o group resource verb name
        if names.isEmpty then
          if held none then [] else [.resource group resource none verb]
        else
          names.flatMap fun name =>
            if held (some name) then [] else [.resource group resource (some name) verb]

def uncoveredUrls (ownerNonResource : List Value) (rule : Value) : List Missing :=
  (strings rule["nonResourceURLs"]).flatMap fun url =>
    (strings rule["verbs"]).flatMap fun verb =>
      if ownerNonResource.any fun o => coversUrl o url verb then [] else [.url url verb]

/-- The parts of `rules` that `owner` does not hold. -/
def uncovered (owner ownerNonResource rules : List Value) : List Missing :=
  rules.flatMap fun rule => uncoveredResources owner rule ++ uncoveredUrls ownerNonResource rule

theorem strings_index (rule : Value) (field : String) :
    strings rule[field] = (entries rule field).filterMap Value.asStr? := by
  unfold strings entries
  cases rule[field].asArray? <;> rfl

theorem has_iff (list : List String) (text : String) :
    has list text = true ↔ ∃ entry ∈ list, wordAccepts entry text = true := any_eq_true

theorem strings_subset (rule : Value) (field : String) :
    strings rule[field] ⊆ (entries rule field).map entryText := by
  intro text member
  rw [strings_index] at member
  have ⟨entry, inside, equal⟩ := mem_filterMap.mp member
  exact mem_map.mpr ⟨entry, inside, by simp [entryText, equal]⟩

theorem strings_verbs_subset (rule : Value) : strings rule["verbs"] ⊆ verbPatterns rule := by
  unfold strings verbPatterns
  cases rule["verbs"].asArray? with
  | none => simp
  | some verbs =>
    intro text member
    have ⟨entry, inside, equal⟩ := mem_filterMap.mp member
    exact mem_map.mpr ⟨entry, inside, by simp [entryText, equal]⟩

/-- The name `uncovered` asks about for one of a rule's scopes. -/
def askedName : NameScope → Option String
  | .named name => some name
  | _ => none

variable {scope : NameScope} {rule : Value}

theorem mem_nameScopes (member : scope ∈ nameScopes rule) :
    (strings rule["resourceNames"] = [] ∧ askedName scope = none) ∨
      ∃ name ∈ strings rule["resourceNames"], scope = .named name := by
  revert member
  unfold nameScopes strings
  cases rule["resourceNames"].asArray? with
  | none =>
    intro member
    obtain rfl : scope = .any := by simpa using member
    exact .inl ⟨rfl, rfl⟩
  | some names =>
    intro member
    dsimp only at member ⊢
    split_ifs at member with empty noText
    · obtain rfl : scope = .any := by simpa using member
      exact .inl ⟨by rw [List.isEmpty_iff.mp empty]; rfl, rfl⟩
    · obtain rfl : scope = .nameless := by simpa using member
      exact .inl ⟨List.isEmpty_iff.mp noText, rfl⟩
    · obtain ⟨name, inside, rfl⟩ := mem_map.mp member
      exact .inr ⟨name, inside, rfl⟩

variable {verb url : String} {o : Value}

theorem uncoveredResources_eq_nil {owner : List Value}
    (clear : uncoveredResources owner rule = []) {group resource : String}
    (inGroups : group ∈ strings rule["apiGroups"])
    (inResources : resource ∈ strings rule["resources"]) (inVerbs : verb ∈ strings rule["verbs"])
    (inScopes : scope ∈ nameScopes rule) :
    ∃ o ∈ owner, coversResource o group resource verb (askedName scope) = true := by
  simp only [uncoveredResources, flatMap_eq_nil_iff] at clear
  have examined := clear group inGroups resource inResources verb inVerbs
  rcases mem_nameScopes inScopes with ⟨noNames, unnamed⟩ | ⟨name, inNames, rfl⟩
  · rw [noNames] at examined
    simpa [unnamed] using examined
  · have named : (strings rule["resourceNames"]).isEmpty = false := by
      rw [isEmpty_eq_false_iff]
      exact ne_nil_of_mem inNames
    rw [named] at examined
    simpa [askedName] using flatMap_eq_nil_iff.mp examined name inNames

/-- The other alternatives of `coversResource` accept what the authorizer accepts. A `*/sub` entry
does not: the authorizer takes it for the resource of that very name. -/
def looseResource (o : Value) (resource : String) : Bool :=
  !(strings o["resources"]).any fun entry => globAccepts entry resource

/-- A name list without a string in it is no restriction to the check and lets no name through in
the authorizer. -/
def looseNames (o : Value) (scope : NameScope) : Bool :=
  !(entries o "resourceNames").isEmpty && (strings o["resourceNames"]).isEmpty && scope != .nameless

def loose (o : Value) (grant : Grant) : Bool :=
  looseResource o grant.2.1 || looseNames o grant.2.2.2

/-- A trailing `*` is a wildcard to the check; to the authorizer only a trailing `/*` is. -/
def looseUrl (o : Value) (url : String) : Bool :=
  !(strings o["nonResourceURLs"]).any fun entry => globAccepts entry url

theorem coversResource_iff (o : Value) (group resource verb : String) (name : Option String) :
    coversResource o group resource verb name = true ↔
      has (strings o["verbs"]) verb = true ∧ has (strings o["apiGroups"]) group = true ∧
      (has (strings o["resources"]) resource = true ∨
        ∃ base sub, splitOnce resource '/' = some (base, sub) ∧
          ("*/" ++ sub ∈ strings o["resources"] ∨ base ++ "/*" ∈ strings o["resources"])) ∧
      (strings o["resourceNames"] = [] ∨ ∃ listed ∈ strings o["resourceNames"],
          name = some listed) := by
  have unguarded : coversResource o group resource verb name =
      (has (strings o["verbs"]) verb && (has (strings o["apiGroups"]) group &&
        ((has (strings o["resources"]) resource || (splitOnce resource '/').any fun (base, sub) =>
            (strings o["resources"]).any fun entry =>
              entry == "*/" ++ sub || entry == base ++ "/*") &&
        ((strings o["resourceNames"]).isEmpty ||
          name.any fun name => (strings o["resourceNames"]).contains name)))) := by
    have guard (passed rest : Bool) :
        (if (!passed) = true then false else rest) = (passed && rest) := by cases passed <;> rfl
    unfold coversResource
    rw [← Bool.not_and, guard, guard, Bool.and_assoc]
  rw [unguarded]
  simp only [and_eq_true, or_eq_true, any_eq_true, Option.any_eq_true, beq_iff_eq,
    List.isEmpty_iff, contains_iff_mem, Prod.exists]
  grind

theorem covers_scope (strict : looseNames o scope = false)
    (named : strings o["resourceNames"] = [] ∨
      ∃ listed ∈ strings o["resourceNames"], askedName scope = some listed) :
    ∃ wide ∈ nameScopes o, wide.covers scope = true := by
  revert strict named
  unfold looseNames nameScopes strings entries
  cases o["resourceNames"].asArray? with
  | none =>
    intro _ _
    exact ⟨.any, by simp, rfl⟩
  | some names =>
    intro strict named
    dsimp only [Option.getD_some] at strict named ⊢
    split_ifs with empty noText
    · exact ⟨.any, by simp, rfl⟩
    · rw [noText] at strict
      obtain rfl : scope = .nameless := by simpa [empty] using strict
      exact ⟨.nameless, by simp, rfl⟩
    · rcases named with none | ⟨listed, member, asked⟩
      · exact absurd (List.isEmpty_iff.mpr none) noText
      · cases scope <;> simp_all [askedName, NameScope.covers]

theorem coversResource_grants {group resource : String}
    (covering : coversResource o group resource verb (askedName scope) = true)
    (strict : loose o (group, resource, verb, scope) = false) :
    ∃ wide ∈ grants o, grantLanguage.covers wide (group, resource, verb, scope) = true := by
  obtain ⟨verbOk, groupOk, -, namesOk⟩ := (coversResource_iff _ _ _ _ _).mp covering
  have ⟨resourceStrict, namesStrict⟩ := or_eq_false_iff.mp strict
  have ⟨verbEntry, inVerbs, verbAccepts⟩ := (has_iff _ _).mp verbOk
  have ⟨groupEntry, inGroups, groupAccepts⟩ := (has_iff _ _).mp groupOk
  obtain ⟨resourceEntry, inResources, resourceAccepts⟩ :
      ∃ entry ∈ strings o["resources"], globAccepts entry resource = true := by
    simpa [looseResource] using resourceStrict
  have ⟨wide, inScopes, scopeCovers⟩ := covers_scope namesStrict namesOk
  refine ⟨(groupEntry, resourceEntry, verbEntry, wide), ?_, ?_⟩
  · rw [mem_grants]
    exact ⟨strings_subset _ _ inGroups, strings_subset _ _ inResources,
      strings_verbs_subset _ inVerbs, inScopes⟩
  · simp only [grantLanguage, Pattern.Language.prod_covers, and_eq_true]
    exact ⟨groupAccepts, resourceAccepts, verbAccepts, scopeCovers⟩

theorem coversUrl_grants (covering : coversUrl o url verb = true)
    (strict : looseUrl o url = false) :
    ∃ wide ∈ urlGrants o, urlGrantLanguage.covers wide (url, verb) = true := by
  obtain ⟨verbOk, -⟩ := and_eq_true_iff.mp covering
  have ⟨verbEntry, inVerbs, verbAccepts⟩ := (has_iff _ _).mp verbOk
  obtain ⟨urlEntry, inUrls, urlAccepts⟩ :
      ∃ entry ∈ strings o["nonResourceURLs"], globAccepts entry url = true := by
    simpa [looseUrl] using strict
  refine ⟨(urlEntry, verbEntry), ?_, ?_⟩
  · rw [mem_urlGrants, ← strings_index]
    exact ⟨strings_subset _ _ inUrls, inVerbs⟩
  · simp only [urlGrantLanguage, Pattern.Language.prod_covers, and_eq_true]
    exact ⟨urlAccepts, verbAccepts⟩

/-- The owner's rules permit every request, for a resource or for a path, that `rules` permit. -/
def Contained (owner ownerNonResource rules : List Value) : Prop :=
  (∀ request, permits rules request = true → permits owner request = true) ∧
    ∀ path verb, permitsUrl rules path verb = true → permitsUrl ownerNonResource path verb = true

/-- The check only looks at entries that are strings, and at no verb of a rule without a verb
list. The authorizer reads such an entry as the empty string and such a rule as every verb. -/
def examined (rule : Value) (grant : Grant) : Bool :=
  (strings rule["apiGroups"]).contains grant.1 && (strings rule["resources"]).contains grant.2.1 &&
    (strings rule["verbs"]).contains grant.2.2.1

def examinedUrl (rule : Value) (grant : UrlGrant) : Bool :=
  (strings rule["nonResourceURLs"]).contains grant.1

/-- The grants the check lets pass without knowing that the authorizer gives them to the owner:
those it does not examine, and those it finds covered by nothing but loose owner rules. -/
def Unsure (owner : List Value) (rule : Value) (grant : Grant) : Prop :=
  let covering := owner.filter fun o =>
    coversResource o grant.1 grant.2.1 grant.2.2.1 (askedName grant.2.2.2)
  examined rule grant = false ∨ covering ≠ [] ∧ ∀ o ∈ covering, loose o grant = true

def UnsureUrl (ownerNonResource : List Value) (rule : Value) (grant : UrlGrant) : Prop :=
  let covering := ownerNonResource.filter fun o => coversUrl o grant.1 grant.2
  examinedUrl rule grant = false ∨ covering ≠ [] ∧ ∀ o ∈ covering, looseUrl o grant.1 = true

/-- One owner rule gives the grant, as the authorizer reads the rule. -/
def Held (owner : List Value) (grant : Grant) : Prop :=
  ∃ wide ∈ owner.flatMap grants, grantLanguage.covers wide grant = true

def HeldUrl (ownerNonResource : List Value) (grant : UrlGrant) : Prop :=
  ∃ wide ∈ ownerNonResource.flatMap urlGrants, urlGrantLanguage.covers wide grant = true

instance (owner : List Value) (rule : Value) (grant : Grant) :
    Decidable (Unsure owner rule grant) :=
  inferInstanceAs (Decidable (_ ∨ _ ∧ _))

instance (owner : List Value) (rule : Value) (grant : UrlGrant) :
    Decidable (UnsureUrl owner rule grant) :=
  inferInstanceAs (Decidable (_ ∨ _ ∧ _))

instance (owner : List Value) (grant : Grant) : Decidable (Held owner grant) :=
  inferInstanceAs
    (Decidable (∃ wide ∈ owner.flatMap grants, grantLanguage.covers wide grant = true))

instance (owner : List Value) (grant : UrlGrant) : Decidable (HeldUrl owner grant) :=
  inferInstanceAs
    (Decidable (∃ wide ∈ owner.flatMap urlGrants, urlGrantLanguage.covers wide grant = true))

theorem contained_iff_held (owner ownerNonResource rules : List Value) :
    Contained owner ownerNonResource rules ↔
      (∀ rule ∈ rules, ∀ grant ∈ grants rule, Held owner grant) ∧
      ∀ rule ∈ rules, ∀ grant ∈ urlGrants rule, HeldUrl ownerNonResource grant := by
  unfold Contained
  rw [permits_contained_iff, permitsUrl_contained_iff]
  simp only [mem_flatMap, forall_exists_index, and_imp, Held, HeldUrl]
  constructor
  · exact fun ⟨resources, urls⟩ => ⟨fun rule inRules grant inGrants =>
      resources grant rule inRules inGrants, fun rule inRules grant inGrants =>
      urls grant rule inRules inGrants⟩
  · exact fun ⟨resources, urls⟩ => ⟨fun grant rule inRules inGrants =>
      resources rule inRules grant inGrants, fun grant rule inRules inGrants =>
      urls rule inRules grant inGrants⟩

variable {owner ownerNonResource : List Value} {rule : Value}

theorem exists_strict {covering slack : Value → Bool} {o : Value}
    (member : o ∈ owner) (covers : covering o = true)
    (notLoose : ¬ (owner.filter covering ≠ [] ∧ ∀ o ∈ owner.filter covering, slack o = true)) :
    ∃ o ∈ owner, covering o = true ∧ slack o = false := by
  by_contra none
  push Not at none
  refine notLoose ⟨ne_nil_of_mem (mem_filter.mpr ⟨member, covers⟩), ?_⟩
  intro other inside
  have ⟨inOwner, alsoCovers⟩ := mem_filter.mp inside
  simpa using none other inOwner alsoCovers

theorem held_of_clear
    (clear : uncoveredResources owner rule = []) {grant : Grant} (member : grant ∈ grants rule)
    (sure : ¬ Unsure owner rule grant) : Held owner grant := by
  have ⟨group, resource, verb, scope⟩ := grant
  have ⟨seen, notLoose⟩ := not_or.mp sure
  obtain ⟨inGroups, inResources, inVerbs⟩ : group ∈ strings rule["apiGroups"] ∧
      resource ∈ strings rule["resources"] ∧ verb ∈ strings rule["verbs"] := by
    simpa [examined] using seen
  have inScopes := ((mem_grants _ _ _ _ _).mp member).2.2.2
  have ⟨o, inOwner, covering⟩ :=
    uncoveredResources_eq_nil clear inGroups inResources inVerbs inScopes
  have ⟨o', inOwner', covering', strict⟩ := exists_strict inOwner covering notLoose
  have ⟨wide, inWide, covers⟩ := coversResource_grants covering' strict
  exact ⟨wide, mem_flatMap.mpr ⟨o', inOwner', inWide⟩, covers⟩

theorem heldUrl_of_clear (clear : uncoveredUrls ownerNonResource rule = []) {grant : UrlGrant}
    (member : grant ∈ urlGrants rule) (sure : ¬ UnsureUrl ownerNonResource rule grant) :
    HeldUrl ownerNonResource grant := by
  have ⟨url, verb⟩ := grant
  have ⟨seen, notLoose⟩ := not_or.mp sure
  have inUrls : url ∈ strings rule["nonResourceURLs"] := by simpa [examinedUrl] using seen
  have inVerbs : verb ∈ strings rule["verbs"] := by
    rw [strings_index]
    exact ((mem_urlGrants _ _ _).mp member).2
  simp only [uncoveredUrls, flatMap_eq_nil_iff] at clear
  have ⟨o, inOwner, covering⟩ : ∃ o ∈ ownerNonResource, coversUrl o url verb = true := by
    simpa using clear url inUrls verb inVerbs
  have ⟨o', inOwner', covering', strict⟩ := exists_strict inOwner covering notLoose
  have ⟨wide, inWide, covers⟩ := coversUrl_grants covering' strict
  exact ⟨wide, mem_flatMap.mpr ⟨o', inOwner', inWide⟩, covers⟩

theorem clear_rule {rules : List Value}
    (clear : uncovered owner ownerNonResource rules = []) (member : rule ∈ rules) :
    uncoveredResources owner rule = [] ∧ uncoveredUrls ownerNonResource rule = [] :=
  append_eq_nil_iff.mp (flatMap_eq_nil_iff.mp clear rule member)

/-- When the check reports nothing, the new rules stay within the owner's exactly when the owner
holds, in the authorizer's reading, each grant the check was not sure of. -/
theorem uncovered_sound_iff (owner ownerNonResource rules : List Value)
    (clear : uncovered owner ownerNonResource rules = []) :
    Contained owner ownerNonResource rules ↔
      (∀ rule ∈ rules, ∀ grant ∈ grants rule, Unsure owner rule grant → Held owner grant) ∧
      ∀ rule ∈ rules, ∀ grant ∈ urlGrants rule,
        UnsureUrl ownerNonResource rule grant → HeldUrl ownerNonResource grant := by
  rw [contained_iff_held]
  constructor
  · rintro ⟨resources, urls⟩
    exact ⟨fun rule inRules grant inGrants _ => resources rule inRules grant inGrants,
      fun rule inRules grant inGrants _ => urls rule inRules grant inGrants⟩
  · rintro ⟨resources, urls⟩
    refine ⟨fun rule inRules grant inGrants => ?_, fun rule inRules grant inGrants => ?_⟩
    · by_cases unsure : Unsure owner rule grant
      · exact resources rule inRules grant inGrants unsure
      · exact held_of_clear (clear_rule clear inRules).1 inGrants unsure
    · by_cases unsure : UnsureUrl ownerNonResource rule grant
      · exact urls rule inRules grant inGrants unsure
      · exact heldUrl_of_clear (clear_rule clear inRules).2 inGrants unsure

def stringList (texts : List String) : Value := .array (texts.map .string)

def resourceRule (apiGroups resources verbs : List String) : Value :=
  .object [("apiGroups", stringList apiGroups), ("resources", stringList resources),
    ("verbs", stringList verbs)]

def urlRule (urls verbs : List String) : Value :=
  .object [("nonResourceURLs", stringList urls), ("verbs", stringList verbs)]

theorem uncovered_sound_iff_podExec :
    uncovered [resourceRule ["*"] ["pods/*"] ["create", "get"]] []
      [resourceRule [""] ["pods/exec"] ["create"]] = [] ∧
    Contained [resourceRule ["*"] ["pods/*"] ["create", "get"]] []
      [resourceRule [""] ["pods/exec"] ["create"]] := by
  refine ⟨by decide, (uncovered_sound_iff _ _ _ (by decide)).mpr ⟨by decide, by decide⟩⟩

/-- Nothing is reported, and the new rules still let a request through that the owner's do not:
for a rule without verbs, for an owner rule on `*/status`, for an owner URL `/logs*`. -/
theorem uncovered_unsound :
    let noVerbs := Value.object
      [("apiGroups", stringList [""]), ("resources", stringList ["secrets"])]
    let anyStatus := resourceRule ["*"] ["*/status"] ["update"]
    let nodeStatus := resourceRule [""] ["nodes/status"] ["update"]
    let logs := urlRule ["/logs*"] ["get"]
    let logFile := urlRule ["/logs/audit"] ["get"]
    (uncovered [] [] [noVerbs] = [] ∧
      permits [noVerbs] ⟨"get", "secrets", none, "", some "kube-system", none⟩ = true ∧
      permits [] ⟨"get", "secrets", none, "", some "kube-system", none⟩ = false) ∧
    (uncovered [anyStatus] [] [nodeStatus] = [] ∧
      permits [nodeStatus] ⟨"update", "nodes", some "status", "", none, some "n1"⟩ = true ∧
      permits [anyStatus] ⟨"update", "nodes", some "status", "", none, some "n1"⟩ = false) ∧
    (uncovered [] [logs] [logFile] = [] ∧ permitsUrl [logFile] "/logs/audit" "get" = true ∧
      permitsUrl [logs] "/logs/audit" "get" = false) := by
  decide

end Rustkube.Escalation
