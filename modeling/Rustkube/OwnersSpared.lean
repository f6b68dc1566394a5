import Rustkube.GarbageCollector

/- What the collector deletes, over a run. -/
namespace Rustkube.Gc

open List Option Transition Json Controllers

section

/-- What a pass knows: its object, the dependents it was shown that it is to delete, and the
references whose object was not where it should be. -/
structure Notes where
  object : Object
  listed : List Seen
  absent : List (Place × Value)

def opening (object : Object) : Notes := ⟨object, [], []⟩

variable (resources : List Resource) (notes : Notes)

/-- The object that a reference names was looked for and not found. -/
def Notes.Checked (ref : Value) : Prop :=
  ∃ resource ∈ resources, ∃ name, ref["apiVersion"] = .string resource.groupVersion ∧
    ref["kind"] = .string resource.kind ∧ ref["name"].asStr? = some name ∧
    (resource.objectPath (namespaceOf notes.object.value) name, ref) ∈ notes.absent

def allows : Op → Prop
  | .list _ => isDeleting notes.object.value = true
  | .delete _ seen _ => seen ∈ notes.listed ∨
      (seen = notes.object.seen ∧ ∀ ref ∈ ownerRefs notes.object.value, notes.Checked resources ref)
  | _ => True

/-- The dependents of an object that is deleted in the foreground, as far as they are not on their
way already. -/
def toDelete (item : Seen) : Bool :=
  ownedBy item.object (uidOf notes.object.value) && !isDeleting item.object &&
    orphanFinalizer ∉ notes.object.finalizers

/-- The references that what was found does not answer to. -/
def unmet (found : Option Seen) (ref : Value) : Bool :=
  textOf ref["uid"] ≠ "" ∧ ¬found.any fun current => current.object["metadata"]["uid"] = ref["uid"]

def note : (op : Op) → Answer op → Notes
  | .list _, some items => { notes with listed := items.filter (toDelete notes) ++ notes.listed }
  | .get place, some found =>
    { notes with
      absent := ((ownerRefs notes.object.value).filter (unmet found)).map (place, ·) ++
        notes.absent }
  | _, _ => notes

/-- The passes over objects, over one store. -/
def collector : Machine World Object Unit Outcome Notes Op Answer where
  perform _ := perform
  attempt _ := reconcile resources
  opening := opening
  protocol := ⟨allows resources, fun _ _ _ => True, note⟩

/-- The pass has learnt more. -/
structure Notes.Extends (notes later : Notes) : Prop where
  object : later.object = notes.object
  listed : notes.listed ⊆ later.listed
  absent : notes.absent ⊆ later.absent

variable {resources notes}

theorem Notes.Extends.refl (notes : Notes) : notes.Extends notes :=
  ⟨rfl, Subset.refl _, Subset.refl _⟩

theorem Notes.Extends.trans {later last : Notes} (first : notes.Extends later)
    (second : later.Extends last) : notes.Extends last :=
  ⟨second.object.trans first.object, Subset.trans first.listed second.listed,
    Subset.trans first.absent second.absent⟩

theorem Notes.Checked.extends {ref : Value} {later : Notes} (checked : notes.Checked resources ref)
    (more : notes.Extends later) : later.Checked resources ref := by
  have ⟨resource, member, name, version, kind, named, absent⟩ := checked
  exact ⟨resource, member, name, version, kind, named, more.object ▸ more.absent absent⟩

end

variable {resource : Resource}

section

variable {resources : List Resource} {notes : Notes} {object : Object} {uid : String} {next : Work}

abbrev Keeps (resources : List Resource) (work : Work) (notes : Notes) : Prop :=
  work.Follows (collector resources).protocol (fun _ result => ∀ next ∈ result, (True : Prop)) notes

theorem stop_keeps : Keeps resources stop notes := fun _ _ => trivial

theorem dependents_spec {items : List Seen} {known known' : List String}
    {children children' : List Object}
    (scanned : dependents uid resource items known children = some (known', children')) :
    ∀ child ∈ children', child ∈ children ∨
      (child.seen ∈ items ∧ ownedBy child.value uid = true) := by
  induction items generalizing known children with
  | nil =>
    obtain ⟨-, rfl⟩ := Prod.mk.inj (some.inj scanned)
    exact fun child member => .inl member
  | cons item rest ih =>
    have later : ∀ child : Object, (child.seen ∈ rest ∧ ownedBy child.value uid = true) →
        child.seen ∈ item :: rest ∧ ownedBy child.value uid = true := fun child found =>
      ⟨.tail _ found.1, found.2⟩
    unfold dependents at scanned
    split_ifs at scanned with owned keyed seen
    · exact fun child member => (ih scanned child member).imp_right (later child)
    · intro child member
      rcases ih scanned child member with old | found
      · rcases mem_append.mp old with before | new
        · exact .inl before
        · rw [mem_singleton.mp new]
          exact .inr ⟨.head _, owned⟩
      · exact .inr (later child found)
    · exact fun child member => (ih scanned child member).imp_right (later child)

/-- The dependents that a pass is to delete were listed. -/
def Notes.Shown (notes : Notes) (children : List Object) : Prop :=
  orphanFinalizer ∉ notes.object.finalizers → ∀ child ∈ children, isDeleting child.value = false →
    child.seen ∈ notes.listed

theorem gather_keeps {next : List Object → Work} (isUid : uid = uidOf notes.object.value)
    (deleting : isDeleting notes.object.value = true) {children : List Object}
    (shown : notes.Shown children)
    (goesOn : ∀ later children, notes.Extends later → later.Shown children →
      Keeps resources (next children) later) (rest : List Resource) (known : List String) :
    Keeps resources (gather uid next rest known children) notes := by
  induction rest generalizing notes known children with
  | nil => exact goesOn notes children (.refl notes) shown
  | cons resource rest ih =>
    refine ⟨deleting, fun answer _ => ?_⟩
    match answer with
    | none => exact stop_keeps
    | some items =>
      dsimp only
      split
      · next known' children' scanned =>
        set later := note notes (.list resource) (some items) with isLater
        have more : notes.Extends later := ⟨rfl, subset_append_right .., Subset.refl _⟩
        refine @ih later isUid deleting children' (fun foreground child member alive => ?_)
          (fun last children extended => goesOn last children (more.trans extended)) known'
        rcases dependents_spec scanned child member with old | ⟨found, owned⟩
        · exact more.listed (shown foreground child old alive)
        · refine mem_append_left _ (mem_filter.mpr ⟨found, ?_⟩)
          have alive : isDeleting child.seen.object = false := alive
          have owned : ownedBy child.seen.object (uidOf notes.object.value) = true := isUid ▸ owned
          have foreground : orphanFinalizer ∉ notes.object.finalizers := foreground
          simp [toDelete, owned, alive, foreground]
      · exact stop_keeps

theorem removeFinalizer_keeps (finalizer : String) (goesOn : Keeps resources next notes) :
    Keeps resources (removeFinalizer object finalizer next) notes := ⟨trivial, fun _ _ => goesOn⟩

theorem stripOwners_keeps {next : Bool → Work}
    (goesOn : ∀ allCut, Keeps resources (next allCut) notes)
    (children : List Object) (allCut : Bool) :
    Keeps resources (stripOwners uid next children allCut) notes := by
  induction children generalizing allCut with
  | nil => exact goesOn allCut
  | cons child rest ih =>
    unfold stripOwners
    dsimp only
    split_ifs
    · exact ih allCut
    · exact ⟨trivial, fun _ _ => ih _⟩

theorem deleteDependents_keeps (goesOn : Keeps resources next notes) {children : List Object}
    (shown : ∀ child ∈ children, isDeleting child.value = false → child.seen ∈ notes.listed) :
    Keeps resources (deleteDependents next children) notes := by
  induction children with
  | nil => exact goesOn
  | cons child rest ih =>
    have tail := ih fun other member => shown other (.tail _ member)
    unfold deleteDependents
    split_ifs with deleting
    · exact tail
    · exact ⟨.inl (shown child (.head _) (by simpa using deleting)), fun _ _ => tail⟩

theorem processFinalizers_keeps (isObject : notes.object = object)
    (goesOn : Keeps resources next notes) {children : List Object} (shown : notes.Shown children) :
    Keeps resources (processFinalizers object children next) notes := by
  unfold processFinalizers
  dsimp only
  rw [← isObject]
  split_ifs with orphan
  · refine stripOwners_keeps (fun allCut => ?_) children true
    split_ifs
    · exact removeFinalizer_keeps _ goesOn
    · exact stop_keeps
  · exact deleteDependents_keeps goesOn (shown orphan)
  · exact deleteDependents_keeps (removeFinalizer_keeps _ goesOn) (shown orphan)

/-- A reference whose owner lives, or was not found. -/
def Notes.Settled (notes : Notes) (resources : List Resource) (live : List String) (ref : Value) :
    Prop :=
  textOf ref["uid"] ∈ live ∨ notes.Checked resources ref

theorem checkOwners_keeps {next : List String → Work} {refs : List Value}
    (isObject : notes.object = object) (within : refs ⊆ ownerRefs object.value)
    {checked : List Value}
    {live : List String} (settled : ∀ ref ∈ checked, notes.Settled resources live ref)
    (goesOn : ∀ later live, notes.Extends later →
      (∀ ref ∈ checked ++ refs, later.Settled resources live ref) →
        Keeps resources (next live) later) :
    Keeps resources (checkOwners resources object next refs live) notes := by
  induction refs generalizing notes checked live with
  | nil => exact goesOn notes live (.refl notes) (by simpa using settled)
  | cons ref rest ih =>
    unfold checkOwners
    split
    · next resource name found isNamed =>
      split_ifs with nameless
      · exact stop_keeps
      refine ⟨trivial, fun answer _ => ?_⟩
      match answer with
      | none => exact stop_keeps
      | some current =>
        set place := resource.objectPath (namespaceOf object.value) name with isPlace
        set later := note notes (.get place) (some current) with isLater
        have more : notes.Extends later := ⟨rfl, Subset.refl _, subset_append_right ..⟩
        refine @ih later isObject (fun other member => within (.tail _ member))
          (checked ++ [ref]) _ (fun other member => ?_) fun last live extended all => ?_
        · rcases mem_append.mp member with old | new
          · rcases settled other old with alive | gone
            · refine .inl ?_
              split_ifs
              · exact .tail _ alive
              · exact alive
            · exact .inr (gone.extends more)
          · rw [mem_singleton.mp new]
            split_ifs with alive
            · exact .inl (.head _)
            · have kind : ref["apiVersion"] = .string resource.groupVersion ∧
                  ref["kind"] = .string resource.kind :=
                of_decide_eq_true (find?_some found :)
              have missed : unmet current ref = true := decide_eq_true ⟨nameless, alive⟩
              refine .inr ⟨resource, mem_of_find?_eq_some found, name, kind.1, kind.2, isNamed, ?_⟩
              refine mem_append_left _ (mem_map.mpr ⟨ref, mem_filter.mpr ⟨?_, missed⟩, ?_⟩)
              · rw [isObject]
                exact within (.head _)
              · rw [isPlace, ← isObject]
                rfl
        · refine goesOn last live (more.trans extended) ?_
          simpa using all
    · exact stop_keeps

theorem cascade_keeps (isObject : notes.object = object) :
    Keeps resources (cascade resources object) notes := by
  refine @checkOwners_keeps _ _ _ _ _ isObject (Subset.refl _)
    [] _ nofun fun later live more all => ?_
  unfold backgroundCascade
  dsimp only
  split_ifs with kept nameless
  · exact stop_keeps
  · exact stop_keeps
  · have same : later.object = object := more.object.trans isObject
    refine ⟨.inr ⟨by rw [same], fun ref member => ?_⟩, fun _ _ => stop_keeps⟩
    rw [same] at member
    refine (all ref (by simpa using member)).resolve_left fun alive => kept (.inr (.inr ?_))
    exact any_eq_true.mpr ⟨ref, member, decide_eq_true alive⟩

theorem reconcile_keeps (resources : List Resource) (object : Object) :
    Keeps resources (reconcile resources object) (opening object) := by
  unfold reconcile
  by_cases unkeyed : ¬keyed object.value
  · rw [if_pos unkeyed]
    exact stop_keeps
  rw [if_neg unkeyed]
  split_ifs with isHeld
  · have deleting : isDeleting object.value = true := (of_decide_eq_true isHeld).1
    exact @gather_keeps _ (opening object) _ _ rfl deleting [] nofun
        (fun later children more shown =>
      processFinalizers_keeps more.object (cascade_keeps more.object) shown) _ _
  · exact cascade_keeps rfl

def discipline (resources : List Resource) : (collector resources).Discipline where
  admitted _ := True
  settled _ := True
  follows _ object _ := (reconcile_keeps resources object).imp fun _ _ all => ⟨trivial, all⟩

end

section

/-- What others do: they make, change and remove objects. -/
inductive Event where
  | create (place : Place) (object : Value)
  | touch (place : Place) (object : Value)
  | remove (place : Place)
deriving DecidableEq

def Event.land (world : World) : Event → Option World
  | .create place object =>
    if world.current place = none then some (world.write place object) else none
  | .touch place object => (world.current place).map fun _ => world.write place object
  | .remove place => (world.current place).map fun _ => world.remove place

/-- The server makes the uids, and a deletion mark stays: whatever the policy of a delete, it marks
the object with some finalizer or removes it. -/
def Event.Foreign (world : World) : Event → Prop
  | .create _ object => Unused world (uidOf object)
  | .touch place object => ∀ stored ∈ world.current place, uidOf object = uidOf stored.object ∧
      (isDeleting stored.object = true → isDeleting object = true)
  | .remove _ => True

instance (world : World) (event : Event) : Decidable (event.Foreign world) := by
  cases event <;> unfold Event.Foreign <;> infer_instance

abbrev CollectorPool : Type := Pool World Object Unit Notes Op Answer

inductive Action where
  | work (action : PoolAction Object Unit Outcome)
  | event (event : Event)

def nextCall (state : CollectorPool) (index : Nat) : Option (Notes × Op) :=
  match state.threads[index]? with
  | some ⟨_, _, .call op _, notes⟩ => some (notes, op)
  | _ => none

variable (resources : List Resource)

def step (state : CollectorPool) : Action → Option CollectorPool
  | .work action => (collector resources).step state action
  | .event event => (event.land state.store).map fun store => { state with store }

/-- A pass starts from any version its object ever had. -/
def Permitted (state : CollectorPool) : Action → Prop
  | .work (.arrive object _) => ∃ entry ∈ state.store.past, entry.2 = object.seen
  | .work (.call _ outcome) => outcome ≠ .raced
  | .work (.turn _ _) => False
  | .event event => event.Foreign state.store

instance (state : CollectorPool) (action : Action) : Decidable (Permitted state action) := by
  cases action with
  | work action => cases action <;> unfold Permitted <;> infer_instance
  | event event => unfold Permitted; infer_instance

/-- No dependent of the owner among the objects of a resource has another owner that lives. -/
def Lone (world : World) (resource : Resource) (uid : String) : Prop :=
  ∀ entry ∈ world.past, world.current entry.1 = some entry.2 → entry.1.resource = resource →
    ownedBy entry.2.object uid = true → isDeleting entry.2.object = false →
    ∀ ref ∈ ownerRefs entry.2.object, ref["uid"].asStr? ≠ some uid →
    ∀ other ∈ world.past, world.current other.1 = some other.2 →
      Names entry.2.object ref other.1 other.2.object → isDeleting other.2.object = true

instance (world : World) (resource : Resource) (uid : String) :
    Decidable (Lone world resource uid) :=
  inferInstanceAs (Decidable (∀ _ ∈ _, _))

/-- The table has the resource that objects of a kind are stored under. -/
def Known (place : Place) : Prop :=
  (place.resource.namespaced = false → place.space = "") ∧
    ∀ resource ∈ resources, resource.groupVersion = place.resource.groupVersion →
      resource.kind = place.resource.kind → resource = place.resource

instance (place : Place) : Decidable (Known resources place) := inferInstanceAs (Decidable (_ ∧ _))

/-- The dependents of an object that is deleted in the foreground have no other owner that lives
when they are listed, and the table is right about the kinds. -/
def Careful (state : CollectorPool) (action : Action) : Prop :=
  Permitted state action ∧
    match action with
    | .work (.call index _) =>
      match nextCall state index with
      | some (notes, .list resource) => orphanFinalizer ∉ notes.object.finalizers →
          Lone state.store resource (uidOf notes.object.value)
      | _ => True
    | .event (.create place _) => Known resources place
    | _ => True

instance (state : CollectorPool) (action : Action) :
    Decidable (Careful resources state action) := by
  unfold Careful
  cases action with
  | work action =>
    cases action with
    | call index outcome =>
      have listing : Decidable (match nextCall state index with
          | some (notes, .list resource) => orphanFinalizer ∉ notes.object.finalizers →
              Lone state.store resource (uidOf notes.object.value)
          | _ => True) := by split <;> infer_instance
      exact instDecidableAnd
    | _ => infer_instance
  | event event => cases event <;> infer_instance

end

variable {world after : World} {notes : Notes} {resources : List Resource} {item : Seen}
  {event : Event} {place : Place}

/-- What a pass has noted is so, and stays so. -/
structure Backed (world : World) (notes : Notes) : Prop where
  object : ∃ place, (place, notes.object.seen) ∈ world.past
  listed : ∀ child ∈ notes.listed, (∃ place, (place, child) ∈ world.past) ∧
    ∀ ref ∈ ownerRefs child.object, Dead world child.object ref
  absent : ∀ entry ∈ notes.absent, entry.2 ∈ ownerRefs notes.object.value ∧
    Missing world entry.1 entry.2

theorem Backed.change (backed : Backed world notes) (change : Change world after) :
    Backed after notes where
  object := by
    have ⟨place, recorded⟩ := backed.object
    exact ⟨place, change.past_subset recorded⟩
  listed child member := by
    have ⟨⟨place, recorded⟩, dead⟩ := backed.listed child member
    exact ⟨⟨place, change.past_subset recorded⟩, fun ref isRef =>
      change.dead recorded isRef (dead ref isRef)⟩
  absent entry member := by
    have ⟨place, recorded⟩ := backed.object
    have ⟨isRef, missing⟩ := backed.absent entry member
    exact ⟨isRef, change.missing recorded isRef missing⟩

theorem Event.change (foreign : event.Foreign world)
    (landed : event.land world = some after) : Change world after := by
  cases event with
  | create place object =>
    dsimp only [land] at landed
    split_ifs at landed with absent
    cases landed
    exact .create absent foreign
  | touch place object =>
    obtain ⟨stored, found, rfl⟩ := map_eq_some_iff.mp landed
    exact .write found (foreign stored found).1 (foreign stored found).2
  | remove place =>
    obtain ⟨stored, -, rfl⟩ := map_eq_some_iff.mp landed
    exact .remove place

theorem mem_items (member : item ∈ items world resource) :
    ∃ place, (place, item) ∈ world.past ∧ world.current place = some item ∧
      place.resource = resource := by
  obtain ⟨⟨place, version⟩, kept, rfl⟩ := mem_map.mp member
  have ⟨recorded, found⟩ := mem_filter.mp kept
  have ⟨isResource, current⟩ := of_decide_eq_true found
  exact ⟨place, recorded, current, isResource⟩

/-- What is listed is dead: its owner is under deletion, and the others do not live. -/
theorem listed_dead (sound : Sound world) (backed : Backed world notes)
    (deleting : isDeleting notes.object.value = true)
    (lone : Lone world resource (uidOf notes.object.value)) (member : item ∈ items world resource)
    (owned : ownedBy item.object (uidOf notes.object.value) = true)
    (alive : isDeleting item.object = false) :
    ∀ ref ∈ ownerRefs item.object, Dead world item.object ref := by
  intro ref isRef place owner found names
  have ⟨itsPlace, recorded, current, isResource⟩ := mem_items member
  by_cases isOwner : ref["uid"].asStr? = some (uidOf notes.object.value)
  · have ⟨origin, seen⟩ := backed.object
    have same : uidOf owner.object = uidOf notes.object.value :=
      some.inj (names.2.2.2.1.symm.trans isOwner)
    exact sound.doomed _ seen deleting place owner found same
  · exact lone _ recorded current isResource owned alive ref isRef isOwner _
      (sound.versions.stored place owner found) found names

theorem missing_of_unmet {ref : Value}
    (missed : unmet (world.current place) ref = true) : Missing world place ref := by
  intro stored found isUid
  have ⟨given, unmatched⟩ := of_decide_eq_true missed
  rw [found] at unmatched
  apply unmatched
  have some : textOf ref["uid"] = uidOf stored.object := by simp [textOf, isUid]
  simp only [any_some, decide_eq_true_eq]
  have refText : ref["uid"] = .string (uidOf stored.object) := by
    cases held : ref["uid"] with
    | string text =>
      rw [held] at isUid
      exact congrArg Value.string (Option.some.inj isUid)
    | _ => simp [held, Value.asStr?] at isUid
  rw [refText]
  unfold uidOf textOf at some ⊢
  cases held : stored.object["metadata"]["uid"] with
  | string text => rfl
  | _ =>
    rw [held] at some
    exact absurd some given

theorem note_backed (sound : Sound world) (backed : Backed world notes) {op : Op}
    (allowed : allows resources notes op) (outcome : Outcome)
    (lone : ∀ resource, op = .list resource → orphanFinalizer ∉ notes.object.finalizers →
      Lone world resource (uidOf notes.object.value)) :
    Backed (perform world op outcome).2 (note notes op (perform world op outcome).1) := by
  have kept := backed.change (perform_change world op outcome)
  cases op with
  | list resource =>
    by_cases served : outcome = .served
    · subst served
      refine ⟨backed.object, fun child member => ?_, backed.absent⟩
      rcases mem_append.mp member with new | old
      · have ⟨shown, chosen⟩ := mem_filter.mp new
        simp only [toDelete, Bool.and_eq_true, Bool.not_eq_true', decide_eq_true_eq] at chosen
        have ⟨⟨owned, alive⟩, foreground⟩ := chosen
        obtain ⟨place, recorded, -, -⟩ := mem_items shown
        exact ⟨⟨place, recorded⟩,
          listed_dead sound backed allowed (lone resource rfl foreground) shown owned alive⟩
      · exact backed.listed child old
    · have failed : (perform world (.list resource) outcome).1 = none := if_neg served
      rw [failed]
      exact kept
  | get place =>
    by_cases served : outcome = .served
    · subst served
      refine ⟨backed.object, backed.listed, fun entry member => ?_⟩
      rcases mem_append.mp member with new | old
      · obtain ⟨ref, chosen, rfl⟩ := mem_map.mp new
        have ⟨isRef, missed⟩ := mem_filter.mp chosen
        exact ⟨isRef, missing_of_unmet missed⟩
      · exact backed.absent entry old
    · have failed : (perform world (.get place) outcome).1 = none := if_neg served
      rw [failed]
      exact kept
  | delete | patch => exact kept

section

variable (sound : Sound world) (known : ∀ entry ∈ world.past, Known resources entry.1)

include sound known

theorem hit_dead (backed : Backed world notes) {op : Op} (allowed : allows resources notes op)
    {outcome : Outcome} (unraced : outcome ≠ .raced) {version : Seen}
    (hits : hit world op outcome = some version) :
    ∀ ref ∈ ownerRefs version.object, Dead world version.object ref := by
  cases op with
  | delete place seen policy =>
    have ⟨found, number⟩ := filter_eq_some_iff.mp hits
    have same : version.number = seen.number := ((of_decide_eq_true number).resolve_left unraced).2
    have stored := sound.versions.stored place version found
    have isSeen : (∃ origin, (origin, seen) ∈ world.past) → version = seen :=
        fun ⟨origin, recorded⟩ =>
      (Prod.mk.inj (sound.versions.unique _ stored _ recorded same)).2
    rcases allowed with listed | ⟨rfl, checked⟩
    · have ⟨recorded, dead⟩ := backed.listed seen listed
      rw [isSeen recorded]
      exact dead
    · rw [isSeen backed.object]
      intro ref isRef target owner at1 names
      have ⟨resource, member, name, version, kind, named, absent⟩ := checked ref isRef
      have ⟨ownVersion, ownKind, ownName, ownUid, space⟩ := names
      have right := known _ (sound.versions.stored target owner at1)
      have isResource : resource = target.resource :=
        right.2 resource member (Value.string.inj (version.symm.trans ownVersion))
          (Value.string.inj (kind.symm.trans ownKind))
      have isTarget : resource.objectPath (namespaceOf notes.object.value) name = target := by
        have ⟨itsResource, itsSpace, itsName⟩ := target
        obtain rfl := isResource
        cases named.symm.trans ownName
        unfold Resource.objectPath
        cases namespaced : resource.namespaced with
        | true =>
          have inSpace : itsSpace = namespaceOf notes.object.value := space namespaced
          rw [if_pos rfl, inSpace]
        | false => rw [if_neg (by decide), ← right.1 namespaced]
      exact absurd ownUid ((backed.absent _ absent).2 owner (isTarget ▸ at1))
  | _ => cases hits

theorem known_perform (op : Op) (outcome : Outcome) :
    ∀ entry ∈ (perform world op outcome).2.past, Known resources entry.1 := by
  have stored : ∀ place version, world.current place = some version → Known resources place :=
    fun place version found => known _ (sound.versions.stored place version found)
  cases op with
  | list | get => exact known
  | delete place seen policy =>
    simp only [perform]
    split
    · next version hits =>
      have found : world.current place = some version := (filter_eq_some_iff.mp hits).1
      split
      · exact forall_mem_cons.mpr ⟨stored place version found, known⟩
      · exact known
    · exact known
  | patch place seen patch =>
    simp only [perform]
    split
    · next version filtered =>
      have found : world.current place = some version := (filter_eq_some_iff.mp filtered).1
      split
      · split_ifs
        · dsimp only [put]
          split_ifs
          · exact known
          · exact forall_mem_cons.mpr ⟨stored place version found, known⟩
        · exact known
      · exact known
    · exact known

theorem known_event
    (right : ∀ place object, event = .create place object → Known resources place)
    (landed : event.land world = some after) : ∀ entry ∈ after.past, Known resources entry.1 := by
  cases event with
  | create place object =>
    dsimp only [Event.land] at landed
    split_ifs at landed
    cases landed
    exact forall_mem_cons.mpr ⟨right place object rfl, known⟩
  | touch place object =>
    obtain ⟨stored, found, rfl⟩ := map_eq_some_iff.mp landed
    have isKnown := known _ (sound.versions.stored place stored found)
    exact forall_mem_cons.mpr ⟨isKnown, known⟩
  | remove place =>
    obtain ⟨stored, -, rfl⟩ := map_eq_some_iff.mp landed
    exact known

end

/-- What holds of the passes and the store in every run. -/
structure Inv (resources : List Resource) (state : CollectorPool) : Prop where
  kept : (discipline resources).Kept state
  sound : Sound state.store
  known : ∀ entry ∈ state.store.past, Known resources entry.1
  backed : ∀ notes ∈ state.notes, Backed state.store notes

variable {state : CollectorPool}

theorem inv_step {before after : CollectorPool} {action : Action} (inv : Inv resources before)
    (permitted : Careful resources before action)
    (taken : step resources before action = some after) :
    Inv resources after := by
  cases action with
  | event event =>
    obtain ⟨store, landed, rfl⟩ := map_eq_some_iff.mp taken
    have change := Event.change permitted.1 landed
    refine ⟨inv.kept, change.sound inv.sound,
      known_event inv.sound inv.known (fun place object same => ?_) landed,
      fun notes member => (inv.backed notes member).change change⟩
    subst same
    exact permitted.2
  | work action =>
    have meets : (collector resources).Meets (discipline resources).admitted before action := by
      cases action with
      | call index outcome => exact fun _ _ _ _ => trivial
      | _ => trivial
    have ⟨kept, moved⟩ := Machine.step_moved inv.kept meets taken
    cases moved with
    | @arrived object setting store notes =>
      refine ⟨kept, store ▸ inv.sound, store ▸ inv.known, ?_⟩
      rw [store, notes]
      have ⟨⟨place, version⟩, recorded, isSeen⟩ := permitted.1
      obtain rfl : version = object.seen := isSeen
      exact forall_mem_concat inv.backed ⟨⟨place, recorded⟩, nofun, nofun⟩
    | @called index outcome setting notes op calls held allowed can store noted =>
      have backed := inv.backed notes (mem_of_getElem? held)
      have change := perform_change before.store op outcome
      have isStore : after.store = (perform before.store op outcome).2 := store
      refine ⟨kept, isStore ▸ change.sound inv.sound,
        isStore ▸ known_perform inv.sound inv.known op outcome, ?_⟩
      rw [isStore, noted]
      refine forall_mem_set (fun other old => (inv.backed other old).change change) ?_
      refine note_backed inv.sound backed allowed outcome fun resource isList => ?_
      subst isList
      have ⟨request, next, found⟩ := calls
      simpa [nextCall, found] using permitted.2
    | turned => exact absurd permitted.1 id

/-- A store without passes. -/
def fresh (world : World) : CollectorPool := ⟨world, []⟩

theorem inv_reaches (sound : Sound world) (known : ∀ entry ∈ world.past, Known resources entry.1)
    (reached : Reaches (step resources) (Careful resources) (fresh world) state) :
    Inv resources state := by
  have initial : Inv resources (fresh world) := ⟨nofun, sound, known, nofun⟩
  exact reached.invariant initial fun _ _ _ inv permitted taken => inv_step inv permitted taken

/-- Garbage collection spares the living: what a DELETE of the collector hits has no owner that
exists and is not being deleted. -/
theorem collector_spares_living (resources : List Resource) {world : World} (sound : Sound world)
    (known : ∀ entry ∈ world.past, Known resources entry.1) {state : CollectorPool}
    (reached : Transition.Reaches (step resources) (Careful resources) (fresh world) state)
    {index : Nat} {outcome : Outcome}
    (permitted : Careful resources state (.work (.call index outcome))) {notes : Notes} {op : Op}
    (next : nextCall state index = some (notes, op)) {child : Seen}
    (hits : hit state.store op outcome = some child) :
    ∀ ref ∈ ownerRefs child.object, ∀ place owner, state.store.current place = some owner →
      Names child.object ref place owner.object → isDeleting owner.object = true := by
  have inv := inv_reaches sound known reached
  unfold nextCall at next
  split at next
  · next request setting called goesOn notes' found =>
    obtain ⟨rfl, rfl⟩ := Prod.mk.inj (some.inj next)
    have thread := mem_of_getElem? found
    have allowed : allows resources notes' called := (inv.kept _ thread).1
    have backed := inv.backed notes' (List.mem_map_of_mem thread)
    exact hit_dead inv.sound inv.known backed allowed permitted.1 hits
  · cases next

def replicaSets : Resource := ⟨"apps/v1", "replicasets", "ReplicaSet", true⟩

def pods : Resource := ⟨"v1", "pods", "Pod", true⟩

def objectOf (name uid : String) (metadata : List (String × Value)) : Value :=
  .object [("metadata", .object ([("name", .string name), ("namespace", .string "ns"),
    ("uid", .string uid)] ++ metadata))]

def refTo (name uid : String) : Value :=
  .object [("apiVersion", .string "apps/v1"), ("kind", .string "ReplicaSet"),
    ("name", .string name), ("uid", .string uid)]

def emptyWorld : World := .empty

theorem sound_emptyWorld : Sound emptyWorld := ⟨Versions.sound_empty, nofun, nofun⟩

/-- A Pod whose ReplicaSet is removed, up to the end of the check for its owner. -/
def ownerGone : List Action :=
  let pod := objectOf "p" "2" [("ownerReferences", .array [refTo "a" "1"])]
  [.event (.create ⟨replicaSets, "ns", "a"⟩ (objectOf "a" "1" [])),
    .event (.create ⟨pods, "ns", "p"⟩ pod), .event (.remove ⟨replicaSets, "ns", "a"⟩),
    .work (.arrive ⟨pods, ⟨2, pod⟩⟩ ()), .work (.call 0 .served)]

def hitsUid (uid : String) (state : CollectorPool) : Bool :=
  (nextCall state 0).any fun (_, op) => (hit state.store op .served).any fun child =>
    uidOf child.object = uid

theorem collector_spares_living_owner_gone :
    ∃ (state : CollectorPool) (notes : Notes) (op : Op) (child : Seen),
      Transition.Reaches (step [replicaSets, pods]) (Careful [replicaSets, pods]) (fresh emptyWorld)
        state ∧ nextCall state 0 = some (notes, op) ∧ hit state.store op .served = some child ∧
      uidOf child.object = "2" ∧
      ∀ ref ∈ ownerRefs child.object, ∀ place owner, state.store.current place = some owner →
        Names child.object ref place owner.object → isDeleting owner.object = true := by
  simp only [exists_and_left]
  refine exists_reaches_of ownerGone (fun state => hitsUid "2" state &&
    decide (Careful [replicaSets, pods] state (.work (.call 0 .served)))) (by decide +kernel)
    fun state reached passed => ?_
  have ⟨hits, permitted⟩ := Bool.and_eq_true_iff.mp passed
  have ⟨⟨notes, op⟩, next, hits⟩ := (Option.any_eq_true _ _).mp hits
  have ⟨child, hits, isPod⟩ := (Option.any_eq_true _ _).mp hits
  refine ⟨notes, op, next, child, hits, of_decide_eq_true isPod, ?_⟩
  exact collector_spares_living [replicaSets, pods] sound_emptyWorld nofun reached
    (of_decide_eq_true permitted) next hits

/-- A Pod of two ReplicaSets, one of which is deleted in the foreground. -/
def twoOwners : List Action :=
  [.event (.create ⟨replicaSets, "ns", "a"⟩ (objectOf "a" "1" [])),
    .event (.create ⟨replicaSets, "ns", "b"⟩ (objectOf "b" "2" [])),
    .event (.create ⟨pods, "ns", "p"⟩
      (objectOf "p" "3" [("ownerReferences", .array [refTo "a" "1", refTo "b" "2"])])),
    .event (.touch ⟨replicaSets, "ns", "a"⟩ foregroundDeleted),
    .work (.arrive ⟨replicaSets, ⟨4, foregroundDeleted⟩⟩ ()), .work (.call 0 .served),
    .work (.call 0 .served)]
where
  foregroundDeleted : Value := objectOf "a" "1" [("deletionTimestamp", .string "now"),
    ("finalizers", .array [.string foregroundFinalizer])]

/-- The Pod is deleted although the other ReplicaSet lives. -/
theorem collector_takes_shared :
    ∃ (state : CollectorPool) (notes : Notes) (op : Op) (child owner : Seen) (ref : Value)
      (place : Place),
      Transition.Reaches (step [replicaSets, pods]) Permitted (fresh emptyWorld) state ∧
      nextCall state 0 = some (notes, op) ∧ hit state.store op .served = some child ∧
      ref ∈ ownerRefs child.object ∧ state.store.current place = some owner ∧
      Names child.object ref place owner.object ∧ isDeleting owner.object = false := by
  simp only [exists_and_left]
  refine exists_reaches_of twoOwners (fun state => (nextCall state 0).any fun (_, op) =>
    (hit state.store op .served).any fun child =>
      (state.store.current ⟨replicaSets, "ns", "b"⟩).any fun owner =>
        refTo "b" "2" ∈ ownerRefs child.object ∧
          Names child.object (refTo "b" "2") ⟨replicaSets, "ns", "b"⟩ owner.object ∧
          isDeleting owner.object = false) (by decide +kernel) fun state reached passed => ?_
  have ⟨⟨notes, op⟩, next, passed⟩ := (Option.any_eq_true _ _).mp passed
  have ⟨child, hits, passed⟩ := (Option.any_eq_true _ _).mp passed
  have ⟨owner, found, passed⟩ := (Option.any_eq_true _ _).mp passed
  have ⟨isRef, names, alive⟩ := of_decide_eq_true passed
  exact ⟨notes, op, next, child, hits, owner, refTo "b" "2", isRef, _, found, names, alive⟩

end Rustkube.Gc
