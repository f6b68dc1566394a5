import Rustkube.Request
import Mathlib.Data.List.TakeWhile
import Rustkube.Lib.PrefixRange

namespace Rustkube.Storage

open Json Text List PrefixRange

abbrev Bytes := List UInt8

structure KeyValue where
  key : String
  value : Bytes
  modRevision : Nat
deriving DecidableEq

/-- The keys of the datastore at one revision, in the order of their bytes. -/
structure Keyspace where
  kvs : List KeyValue
  ordered : kvs.Pairwise fun left right => utf8 left.key < utf8 right.key

/-- etcd: the keyspace at every revision, the current revision, and the one below which history
has been compacted away. `fault` is the error of a call while etcd does not serve. -/
structure Datastore where
  revision : Nat
  compacted : Nat
  history : Nat → Keyspace
  fault : Option StoreError

structure RangeResponse where
  kvs : List KeyValue
  more : Bool
  count : Nat
  headerRevision : Nat

inductive RangeError where
  | compacted
  | failed (error : StoreError)

/-- The keyspace a Range reads: revision 0 asks for the current one. -/
def Datastore.snapshot (store : Datastore) (revision : Nat) : Keyspace :=
  store.history (if revision = 0 then store.revision else revision)

/-- The keys from `start` on and before `rangeEnd`. A `rangeEnd` of one zero byte is no bound. -/
def inRange (start rangeEnd : Bytes) (kv : KeyValue) : Bool :=
  decide (¬ utf8 kv.key < start) && (rangeEnd == [0] || decide (utf8 kv.key < rangeEnd))

/-- A limit that is not positive is none. -/
def limited (limit : Int) (kvs : List KeyValue) : List KeyValue :=
  if limit ≤ 0 then kvs else kvs.take limit.toNat

/-- etcd's Range over `[start, rangeEnd)`, in key order. -/
def Datastore.range (store : Datastore) (start rangeEnd : Bytes) (limit : Int) (revision : Nat) :
    Except RangeError RangeResponse :=
  match store.fault with
  | some error => .error (.failed error)
  | none =>
    if store.revision < revision then
      .error (.failed (.other "etcdserver: mvcc: required revision is a future revision"))
    else if revision ≠ 0 ∧ revision < store.compacted then .error .compacted
    else
      let found := (store.snapshot revision).kvs.filter (inRange start rangeEnd)
      let kvs := limited limit found
      .ok ⟨kvs, kvs.length < found.length, found.length, store.revision⟩

/-- The prefix with its last byte incremented. -/
def prefixRangeEnd (start : String) : Bytes :=
  let bytes := utf8 start
  match bytes.getLast? with
  | none => [0]
  | some last => bytes.dropLast ++ [last + 1]

structure ListResult where
  items : List KeyValue
  continueToken : Option String
  revision : Nat
  remaining : Option Nat

/-- Where a list page starts: right after the continue key, or at the prefix. -/
def startKey (start : String) (continueToken : Option String) : Bytes :=
  match continueToken with
  | some token => utf8 token ++ [0]
  | none => utf8 start

def Datastore.listAt (store : Datastore) (start : String) (limit : Nat)
    (continueToken : Option String) (pinned : Option Nat) : Except StoreError ListResult :=
  -- `with_revision` takes an i64
  if pinned.any (fun revision => decide (2 ^ 63 ≤ revision)) then
    .error (.invalid "revision out of range")
  else
    match store.range (startKey start continueToken) (prefixRangeEnd start)
      (BitVec.ofNat 64 limit).toInt (pinned.getD 0) with
    | .error .compacted =>
      .error (match pinned with
        | some revision => .gone revision
        | none => .other "etcdserver: mvcc: required revision has been compacted")
    | .error (.failed error) => .error error
    | .ok response => .ok {
        items := response.kvs
        continueToken := if response.more then response.kvs.getLast?.map (·.key) else none
        revision := pinned.getD response.headerRevision
        remaining := some (response.count - response.kvs.length) }

/-- Sets `metadata.resourceVersion`, making `metadata` an object first if it is none. -/
def injectResourceVersion (obj : Value) (rev : Nat) : Option Value := do
  let obj ← if obj["metadata"].isObject then some obj else obj.assign "metadata" (.object [])
  let metadata ← obj["metadata"].assign "resourceVersion" (.string (toString rev))
  obj.assign "metadata" metadata

/-- An object of a list page. The page itself drops the key it was read under. -/
structure Served where
  key : String
  object : Value

structure ListPage where
  entries : List Served
  continueToken : Option String
  revision : Nat
  remaining : Option Nat

def ListPage.items (page : ListPage) : List Value := page.entries.map (·.object)

/-- Where a read may be served from. -/
inductive Read where
  | consistent
  | notOlderThan (revision : Nat)
  | exact (revision : Nat)
deriving DecidableEq

def isDigit (char : Char) : Bool := '0' ≤ char && char ≤ '9'

def digitsValue (digits : String) : Nat :=
  digits.toList.foldl (fun value digit => 10 * value + (digit.toNat - '0'.toNat)) 0

theorem digits_toString (number : Nat) : (toString number).toList ≠ [] ∧
    (toString number).toList.all isDigit = true ∧ digitsValue (toString number) = number := by
  have text : (toString number).toList = Nat.toDigits 10 number := by simp [toString, Nat.repr]
  rw [digitsValue, text, List.all_eq_true]
  exact ⟨Nat.toDigits_ne_nil, fun char member =>
    Nat.isDigit_of_mem_toDigits (by decide) (by decide) member, Nat.ofDigitChars_ten_toDigits⟩

/-- `digits.parse::<u64>().ok()` on a string of digits. -/
def parseU64 (digits : String) : Option Nat :=
  if digitsValue digits < 2 ^ 64 then some (digitsValue digits) else none

/-- A continue token: `revision:key`, or a bare key. -/
def parseContinue (token : String) : Option Nat × String :=
  match Text.splitOnce token ':' with
  | some (rev, key) =>
    if rev.toList ≠ [] ∧ rev.toList.all isDigit then (parseU64 rev, key) else (none, token)
  | none => (none, token)

def inconsistentContinue : String :=
  "The provided continue parameter is too old to display a consistent list result. You can start " ++
    "a new list without the continue parameter, or use the continue token in this response to " ++
    "retrieve the remainder of the results. Continuing with the provided token results in an " ++
    "inconsistent list - objects that were created, modified, or deleted between the time the first " ++
    "chunk was returned and now may show up in the list."

/-- The watch cache's copy of the objects below its prefix, at one revision. -/
structure CacheSnapshot where
  kvs : List KeyValue
  revision : Nat

structure CachePage where
  items : List KeyValue
  continueKey : Option String
  revision : Nat
  remaining : Option Nat

/-- One page of a cache's snapshot: from the prefix, or after `afterKey`, as long as the keys
start with the prefix. -/
def CacheSnapshot.readPage (snapshot : CacheSnapshot) (subPrefix : String) (limit : Nat)
    (afterKey : Option String) : CachePage :=
  let range := (snapshot.kvs.filter fun kv => match afterKey with
    | some key => decide (utf8 key < utf8 kv.key)
    | none => decide (¬ utf8 kv.key < utf8 subPrefix)).takeWhile
      fun kv => Text.startsWith kv.key subPrefix
  let items := if limit = 0 then range else range.take limit
  let left := range.length - items.length
  { items, continueKey := if 0 < left then items.getLast?.map (·.key) else none,
    revision := snapshot.revision, remaining := if 0 < left then some left else none }

/-- What a list reads from. `parse` is the JSON parser; `cached` is the watch cache of a prefix
once it reflects a revision, where there is one that does in time. -/
structure Backend where
  store : Datastore
  parse : Bytes → Except String Value
  cached : String → Nat → Option CacheSnapshot

variable {kvs : List KeyValue}

namespace Backend

variable (backend : Backend)

def decode (kv : KeyValue) : Except Failure Served :=
  match backend.parse kv.value with
  | .error message => .error (.api ⟨.internalError, message, none, none⟩)
  | .ok obj =>
    match injectResourceVersion obj kv.modRevision with
    | none => .error .panic
    | some object => .ok ⟨kv.key, object⟩

def decodeAll : List KeyValue → Except Failure (List Served)
  | [] => .ok []
  | kv :: rest =>
    match backend.decode kv with
    | .error failure => .error failure
    | .ok served =>
      match decodeAll rest with
      | .error failure => .error failure
      | .ok others => .ok (served :: others)

def listPinned (start : String) (limit : Nat) (continueToken : Option String)
    (pinned : Option Nat) : Except Failure ListPage :=
  match backend.store.listAt start limit continueToken pinned with
  | .error (.gone revision) =>
    .error (.api (match continueToken with
      | some token => ⟨.expired, inconsistentContinue, some token, none⟩
      | none => .ofStore (.gone revision)))
  | .error error => .error (.api (.ofStore error))
  | .ok page =>
    match backend.decodeAll page.items with
    | .error failure => .error failure
    | .ok entries =>
      let revision := pinned.getD page.revision
      .ok {
        entries
        continueToken := page.continueToken.map fun key => toString revision ++ ":" ++ key
        revision
        remaining := page.remaining }

def listPage (start : String) (limit : Nat) (continueToken : Option String) :
    Except Failure ListPage :=
  match continueToken.map parseContinue with
  | some (rev, key) => backend.listPinned start limit (some key) rev
  | none => backend.listPinned start limit none none

def listPageAt (start : String) (limit rev : Nat) : Except Failure ListPage :=
  backend.listPinned start limit none (some rev)

def listPageRead (cachePrefix start : String) (limit : Nat) (continueToken : Option String)
    (read : Read) : Except Failure ListPage :=
  match continueToken, read with
  | some token, _ => backend.listPage start limit (some token)
  | none, .consistent => backend.listPage start limit none
  | none, .exact rev => backend.listPageAt start limit rev
  | none, .notOlderThan min =>
    match backend.cached cachePrefix min with
    | none => backend.listPage start limit none
    | some snapshot =>
      let page := snapshot.readPage start limit none
      match backend.decodeAll page.items with
      | .error failure => .error failure
      | .ok entries => .ok {
          entries
          continueToken := page.continueKey.map fun key => toString page.revision ++ ":" ++ key
          revision := page.revision
          remaining := page.remaining }

theorem decodeAll_keys {entries : List Served} (decoded : backend.decodeAll kvs = .ok entries) :
    entries.map (·.key) = kvs.map (·.key) := by
  induction kvs generalizing entries with
  | nil =>
    obtain rfl : [] = entries := by simpa [decodeAll] using decoded
    rfl
  | cons kv rest ih =>
    simp only [decodeAll] at decoded
    cases first : backend.decode kv with
    | error failure => simp [first] at decoded
    | ok served =>
      cases others : backend.decodeAll rest with
      | error failure => simp [first, others] at decoded
      | ok tail =>
        obtain rfl : served :: tail = entries := by simpa [first, others] using decoded
        have sameKey : served.key = kv.key := by
          unfold decode at first
          split at first
          · simp at first
          · split at first
            · simp at first
            · simp only [Except.ok.injEq] at first
              rw [← first]
        simp [sameKey, ih others]

end Backend

/-- The prefix read from the store's own bytes: the key starts with it. -/
def Within (start : String) (key : String) : Prop := utf8 start <+: utf8 key

theorem follows_succ {byte : UInt8} (small : byte ≠ 255) : Follows byte (byte + 1) := by
  intro letter
  have notMax : byte.toNat ≠ 255 := fun equal => small (UInt8.toNat.inj equal)
  have bound := byte.toNat_lt
  rw [UInt8.lt_iff_toNat_lt, UInt8.lt_iff_toNat_lt, UInt8.toNat_add]
  change letter.toNat < (byte.toNat + 1) % 256 ↔ _
  omega

variable {start : String} {init : Bytes} {last : UInt8} {limit : Int}

section

variable (split : utf8 start = init ++ [last])

include split

theorem prefixRangeEnd_eq : prefixRangeEnd start = init ++ [last + 1] := by
  simp [prefixRangeEnd, split]

theorem last_ne_255 : last ≠ 255 := utf8_ne_255 start last (by simp [split])

theorem mem_prefixRange_iff (key : Bytes) :
    ¬ key < utf8 start ∧ key < prefixRangeEnd start ↔ utf8 start <+: key := by
  rw [prefixRangeEnd_eq split, split]
  exact mem_range_iff (follows_succ (last_ne_255 split)) init key

theorem prefixRangeEnd_ne_zero : prefixRangeEnd start ≠ [0] := by
  rw [prefixRangeEnd_eq split]
  intro equal
  have lasts := congrArg getLast? equal
  have overflow : last + 1 = 0 := by simpa using lasts
  have bytes := congrArg UInt8.toNat overflow
  have bound := last.toNat_lt
  change (last.toNat + 1) % 256 = 0 at bytes
  exact last_ne_255 split (UInt8.toNat.inj (by change last.toNat = 255; omega))

end

theorem within_iff (start key : String) : Within start key ↔
    ¬ utf8 key < utf8 start ∧ (prefixRangeEnd start = [0] ∨ utf8 key < prefixRangeEnd start) := by
  unfold Within
  rcases eq_nil_or_concat (utf8 start) with empty | ⟨init, last, split⟩
  · simp [prefixRangeEnd, empty]
  · rw [concat_eq_append] at split
    have bounded := prefixRangeEnd_ne_zero split
    simp [← mem_prefixRange_iff split, bounded]

/-- A prefix's range has the keys that start with it, its end is no overflow, and a page that
resumes after a key leaves out the keys up to it. -/
theorem prefix_range_exact (start : String) (given : start ≠ "") :
    (∀ key : Bytes, ¬ key < utf8 start ∧ key < prefixRangeEnd start ↔ utf8 start <+: key) ∧
    (∀ last, (utf8 start).getLast? = some last → last.toNat + 1 < 2 ^ 8) ∧
    ∀ (token : String) (key : Bytes), key < startKey start (some token) ↔ ¬ utf8 token < key := by
  rcases eq_nil_or_concat (utf8 start) with empty | ⟨init, last, split⟩
  · exact absurd (utf8_injective empty) given
  · rw [concat_eq_append] at split
    refine ⟨mem_prefixRange_iff split, fun byte isLast => ?_, fun token => lt_concat_iff nofun _⟩
    have notMax : byte.toNat ≠ 255 := fun equal =>
      utf8_ne_255 start byte (mem_of_getLast? isLast) (UInt8.toNat.inj equal)
    have bound := byte.toNat_lt
    omega

theorem prefix_range_exact_pods :
    ("/registry/pods/" ≠ "") ∧ utf8 "/registry/pods/a" < prefixRangeEnd "/registry/pods/" := by
  refine ⟨by decide, ((prefix_range_exact "/registry/pods/" (by decide)).1 _ |>.mpr ?_).2⟩
  exact ⟨utf8 "a", by decide⟩

theorem mem_inRange_iff (start : String) (token : Option String) (kv : KeyValue) :
    inRange (startKey start token) (prefixRangeEnd start) kv = true ↔
      ¬ utf8 kv.key < startKey start token ∧
        (prefixRangeEnd start = [0] ∨ utf8 kv.key < prefixRangeEnd start) := by
  simp [inRange]

theorem head_mem_limited (limit : Int) (first : KeyValue) (rest : List KeyValue) :
    first ∈ limited limit (first :: rest) := by
  unfold limited
  split_ifs with unlimited
  · exact .head _
  · obtain ⟨count, positive⟩ : ∃ count, limit.toNat = count + 1 := ⟨limit.toNat - 1, by omega⟩
    rw [positive, take_succ_cons]
    exact .head _

theorem mem_of_mem_limited {kv : KeyValue} (member : kv ∈ limited limit kvs) : kv ∈ kvs := by
  unfold limited at member
  split_ifs at member with unlimited
  · exact member
  · exact mem_of_mem_take member

variable {store : Datastore}

variable {pinned : Option Nat} {token : Option String} {limit : Nat} {page : ListResult}

section

variable (listed : store.listAt start limit token pinned = .ok page)

include listed

theorem listAt_items :
    page.items = limited (BitVec.ofNat 64 limit).toInt
      ((store.snapshot (pinned.getD 0)).kvs.filter
        (inRange (startKey start token) (prefixRangeEnd start))) := by
  unfold Datastore.listAt at listed
  split_ifs at listed
  split at listed
  · simp at listed
  · simp at listed
  · rename_i response answered
    simp only [Except.ok.injEq] at listed
    rw [← listed]
    unfold Datastore.range at answered
    split at answered
    · simp at answered
    · split_ifs at answered
      simp only [Except.ok.injEq] at answered
      rw [← answered]

theorem listAt_within_iff :
    (∀ kv ∈ page.items, Within start kv.key) ↔
      ∀ kv ∈ (store.snapshot (pinned.getD 0)).kvs,
        ¬ utf8 kv.key < startKey start token → ¬ utf8 kv.key < utf8 start := by
  rw [listAt_items listed]
  constructor
  · intro within kv stored notBefore before
    have found : kv ∈ (store.snapshot (pinned.getD 0)).kvs.filter
        (inRange (startKey start token) (prefixRangeEnd start)) :=
      mem_filter.mpr ⟨stored, (mem_inRange_iff start token kv).mpr ⟨notBefore,
        ((within_iff start start).mp (prefix_refl _)).2.imp id (List.lt_trans before)⟩⟩
    have sorted := (store.snapshot (pinned.getD 0)).ordered.filter
      (inRange (startKey start token) (prefixRangeEnd start))
    generalize (store.snapshot (pinned.getD 0)).kvs.filter
      (inRange (startKey start token) (prefixRangeEnd start)) = range at within found sorted
    cases range with
    | nil => simp at found
    | cons first rest =>
      have firstBefore : utf8 first.key < utf8 start := by
        rcases mem_cons.mp found with rfl | later
        · exact before
        · exact List.lt_trans (rel_of_pairwise_cons sorted later) before
      have inside := within first (head_mem_limited _ first rest)
      exact not_lt_of_prefix inside firstBefore
  · intro nothingBefore kv member
    have found := mem_filter.mp (mem_of_mem_limited member)
    have range := (mem_inRange_iff start token kv).mp found.2
    exact (within_iff start kv.key).mpr ⟨nothingBefore kv found.1 range.1, range.2⟩

end

/-- No key of the keyspace a continue token reads lies after the token's key and before the
prefix. -/
def NothingBetween (store : Datastore) (start : String) (continueToken : Option String) : Prop :=
  ∀ token, continueToken = some token →
    ∀ kv ∈ (store.snapshot ((parseContinue token).1.getD 0)).kvs,
      ¬ utf8 kv.key < utf8 (parseContinue token).2 ++ [0] → ¬ utf8 kv.key < utf8 start

theorem within_of_keys {entries : List Served} (keys : entries.map (·.key) = kvs.map (·.key)) :
    (∀ entry ∈ entries, Within start entry.key) ↔ ∀ kv ∈ kvs, Within start kv.key := by
  have mapped : (∀ key ∈ entries.map (·.key), Within start key) ↔
      ∀ key ∈ kvs.map (·.key), Within start key := by rw [keys]
  simpa only [forall_mem_map] using mapped

theorem listPinned_within_iff {backend : Backend} {page : ListPage}
    (listed : backend.listPinned start limit token pinned = .ok page) :
    (∀ entry ∈ page.entries, Within start entry.key) ↔
      ∀ kv ∈ (backend.store.snapshot (pinned.getD 0)).kvs,
        ¬ utf8 kv.key < startKey start token → ¬ utf8 kv.key < utf8 start := by
  unfold Backend.listPinned at listed
  split at listed
  · simp at listed
  · simp at listed
  · rename_i result answered
    split at listed
    · simp at listed
    · rename_i entries decoded
      simp only [Except.ok.injEq] at listed
      rw [← listed, ← listAt_within_iff answered]
      exact within_of_keys (backend.decodeAll_keys decoded)

theorem readPage_within (snapshot : CacheSnapshot) (start : String) (limit : Nat)
    (afterKey : Option String) : ∀ kv ∈ (snapshot.readPage start limit afterKey).items,
      Within start kv.key := by
  intro kv member
  have taken : startsWith kv.key start = true := by
    unfold CacheSnapshot.readPage at member
    split_ifs at member
    · have passed := mem_takeWhile_imp member
      exact passed
    · have passed := mem_takeWhile_imp (mem_of_mem_take member)
      exact passed
  have ⟨rest, joined⟩ := (startsWith_iff _ _).mp taken
  have text : kv.key = start ++ String.ofList rest := by
    rw [← String.toList_inj, String.toList_append, String.toList_ofList, joined]
  unfold Within
  rw [text, utf8_append]
  exact prefix_append _ _

/-- A list page stays inside its prefix exactly when its continue token does not reach back to a
stored key before the prefix. -/
theorem listPageRead_within_iff (backend : Backend) (cachePrefix start : String) (limit : Nat)
    (continueToken : Option String) (read : Read) (page : ListPage)
    (listed : backend.listPageRead cachePrefix start limit continueToken read = .ok page) :
    (∀ entry ∈ page.entries, Within start entry.key) ↔
      NothingBetween backend.store start continueToken := by
  unfold NothingBetween
  cases continueToken with
  | some token =>
    have fromStore : backend.listPinned start limit (some (parseContinue token).2)
        (parseContinue token).1 = .ok page := listed
    rw [listPinned_within_iff fromStore]
    simp [startKey]
  | none =>
    have fromStart (pinned : Option Nat)
        (fromStore : backend.listPinned start limit none pinned = .ok page) :
        ∀ entry ∈ page.entries, Within start entry.key :=
      (listPinned_within_iff fromStore).mpr fun _ _ notBefore => notBefore
    have inside : ∀ entry ∈ page.entries, Within start entry.key := by
      cases read with
      | consistent => exact fromStart none listed
      | exact rev => exact fromStart (some rev) listed
      | notOlderThan min =>
        simp only [Backend.listPageRead] at listed
        split at listed
        · exact fromStart none listed
        · rename_i snapshot _
          split at listed
          · simp at listed
          · rename_i entries decoded
            simp only [Except.ok.injEq] at listed
            rw [← listed]
            exact (within_of_keys (backend.decodeAll_keys decoded)).mpr
              (readPage_within snapshot start limit none)
    simpa using inside

/-- A secret of one namespace and two service accounts of another. -/
def sampleKeyspace : Keyspace where
  kvs := [⟨"/registry/secrets/kube-system/token", [], 7⟩,
    ⟨"/registry/serviceaccounts/dev/a", [], 5⟩, ⟨"/registry/serviceaccounts/dev/b", [], 6⟩]
  ordered := by decide

def sampleBackend : Backend where
  store := ⟨7, 0, fun _ => sampleKeyspace, none⟩
  parse := fun _ => .ok (.object [])
  cached := fun _ _ => none

/-- The second page of a list of service accounts. -/
theorem listPageRead_within_secondPage :
    ∃ page, sampleBackend.listPageRead "/registry/serviceaccounts/" "/registry/serviceaccounts/dev/"
        1 (some "7:/registry/serviceaccounts/dev/a") .consistent = .ok page ∧
      page.entries.map (·.key) = ["/registry/serviceaccounts/dev/b"] ∧
      ∀ entry ∈ page.entries, Within "/registry/serviceaccounts/dev/" entry.key := by
  refine ⟨_, rfl, rfl, (listPageRead_within_iff sampleBackend "/registry/serviceaccounts/" _ 1
    (some "7:/registry/serviceaccounts/dev/a") .consistent _ rfl).mpr ?_⟩
  intro token same
  obtain rfl : "7:/registry/serviceaccounts/dev/a" = token := by simpa using same
  decide

/-- The key of a token is taken as it comes: a list of service accounts of one namespace, continued
from `/registry/secrets`, starts with the secrets of another. -/
theorem listPageRead_leaves_prefix :
    ∃ page, sampleBackend.listPageRead "/registry/serviceaccounts/" "/registry/serviceaccounts/dev/"
        500 (some "/registry/secrets") .consistent = .ok page ∧
      page.entries.map (·.key) = ["/registry/secrets/kube-system/token",
        "/registry/serviceaccounts/dev/a", "/registry/serviceaccounts/dev/b"] ∧
      ¬ Within "/registry/serviceaccounts/dev/" "/registry/secrets/kube-system/token" := by
  refine ⟨_, rfl, rfl, ?_⟩
  unfold Within
  decide

end Rustkube.Storage
