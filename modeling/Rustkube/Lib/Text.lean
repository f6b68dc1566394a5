import Mathlib.Data.List.Basic

/- String operations over the characters of a string, so that every one of them computes. -/
namespace Text

open List String

def startsWith (text start : String) : Bool := start.toList.isPrefixOf text.toList

def endsWith (text tail : String) : Bool := tail.toList.isSuffixOf text.toList

def dropLast (text : String) : String := String.ofList text.toList.dropLast

def trimEndMatches (text : String) (char : Char) : String :=
  String.ofList (text.toList.reverse.dropWhile (· == char)).reverse

def splitOnceChars (separator : Char) : List Char → Option (List Char × List Char)
  | [] => none
  | char :: rest =>
    if char = separator then some ([], rest)
    else (splitOnceChars separator rest).map fun (before, after) => (char :: before, after)

def splitOnce (text : String) (separator : Char) : Option (String × String) :=
  (splitOnceChars separator text.toList).map fun (before, after) =>
    (String.ofList before, String.ofList after)

def trimStartMatches (text : String) (char : Char) : String :=
  String.ofList (text.toList.dropWhile (· == char))

def trim (text : String) : String :=
  String.ofList ((text.toList.dropWhile Char.isWhitespace).reverse.dropWhile
    Char.isWhitespace).reverse

def trimMatches (text : String) (drop : Char → Bool) : String :=
  String.ofList ((text.toList.dropWhile drop).reverse.dropWhile drop).reverse

/-- What stands before and after the first occurrence of a pattern. -/
def aroundChars (pattern : List Char) : List Char → Option (List Char × List Char)
  | [] => if pattern.isEmpty then some ([], []) else none
  | char :: rest =>
    if pattern.isPrefixOf (char :: rest) then some ([], (char :: rest).drop pattern.length)
    else (aroundChars pattern rest).map fun (before, after) => (char :: before, after)

/-- `text.find(pattern)`, as the text before it and the text after it. -/
def around (text pattern : String) : Option (String × String) :=
  (aroundChars pattern.toList text.toList).map fun (before, after) =>
    (String.ofList before, String.ofList after)

def stripSuffix (text tail : String) : Option String :=
  if endsWith text tail then
    some (String.ofList (text.toList.take (text.toList.length - tail.toList.length)))
  else none

/-- The parts of `text` between separators. -/
def splitChars (separator : Char) : List Char → List (List Char)
  | [] => [[]]
  | char :: rest =>
    if char = separator then [] :: splitChars separator rest
    else match splitChars separator rest with
      | part :: parts => (char :: part) :: parts
      | [] => [[char]]

def split (text : String) (separator : Char) : List String :=
  (splitChars separator text.toList).map String.ofList

def stripPrefix (text start : String) : Option String :=
  if startsWith text start then some (String.ofList (text.toList.drop start.length)) else none

/-- What stands before the first separator, or the whole text. -/
def upTo (text : String) (separator : Char) : String :=
  ((splitOnce text separator).map Prod.fst).getD text

def contains (text : String) (char : Char) : Bool := text.toList.contains char

theorem startsWith_iff (text start : String) :
    startsWith text start = true ↔ start.toList <+: text.toList := isPrefixOf_iff_prefix

variable {text : String}

theorem not_startsWith {start other : String} (starts : startsWith text start = true)
    (apart : startsWith start other = false) (also : startsWith other start = false) :
    startsWith text other = false := by
  by_contra both
  rw [Bool.not_eq_false, startsWith_iff] at both
  rcases prefix_or_prefix_of_prefix ((startsWith_iff _ _).mp starts) both with short | long
  · rw [(startsWith_iff _ _).mpr short] at also
    cases also
  · rw [(startsWith_iff _ _).mpr long] at apart
    cases apart

theorem endsWith_iff (text tail : String) :
    endsWith text tail = true ↔ tail.toList <:+ text.toList := isSuffixOf_iff_suffix

@[simp] theorem toList_dropLast (text : String) : (dropLast text).toList = text.toList.dropLast :=
  toList_ofList

theorem mem_trimMatches {drop : Char → Bool} {char : Char}
    (member : char ∈ (trimMatches text drop).toList) : char ∈ text.toList := by
  rw [trimMatches, toList_ofList, mem_reverse] at member
  have inner := (dropWhile_sublist _).subset member
  rw [mem_reverse] at inner
  exact (dropWhile_sublist _).subset inner

theorem aroundChars_after {pattern text before after : List Char}
    (found : aroundChars pattern text = some (before, after)) : after ⊆ text := by
  induction text generalizing before with
  | nil =>
    simp only [aroundChars] at found
    split_ifs at found
    obtain ⟨-, rfl⟩ : [] = before ∧ [] = after := by simpa using found
    exact Subset.refl _
  | cons char rest ih =>
    simp only [aroundChars] at found
    split_ifs at found
    · obtain ⟨-, rfl⟩ : [] = before ∧ (char :: rest).drop pattern.length = after := by
        simpa using found
      exact drop_subset _ _
    · have ⟨⟨inner, after'⟩, split, same⟩ := Option.map_eq_some_iff.mp found
      obtain ⟨-, rfl⟩ : char :: inner = before ∧ after' = after := by simpa using same
      exact fun _ member => .tail _ (ih split member)

theorem around_after {pattern before after : String}
    (found : around text pattern = some (before, after)) : after.toList ⊆ text.toList := by
  have ⟨⟨left, right⟩, split, same⟩ := Option.map_eq_some_iff.mp found
  obtain ⟨-, rfl⟩ : ofList left = before ∧ ofList right = after := by
    simpa using same
  rw [toList_ofList]
  exact aroundChars_after split

theorem splitChars_ne_nil (separator : Char) (text : List Char) :
    splitChars separator text ≠ [] := by
  cases text with
  | nil => simp [splitChars]
  | cons char rest =>
    simp only [splitChars]
    split_ifs
    · simp
    · split <;> simp

theorem intercalate_splitChars (separator : Char) (text : List Char) :
    [separator].intercalate (splitChars separator text) = text := by
  induction text with
  | nil => rfl
  | cons char rest ih =>
    simp only [splitChars]
    cases parts : splitChars separator rest with
    | nil => exact absurd parts (splitChars_ne_nil separator rest)
    | cons part others =>
      rw [parts] at ih
      split_ifs with same
      · simp [List.intercalate, same, ← ih]
      · cases others with
        | nil | cons => simpa [List.intercalate] using ih

variable {separator : Char} {rest : List Char} {first second : String}

theorem not_mem_splitChars {text part : List Char}
    (isPart : part ∈ splitChars separator text) : separator ∉ part := by
  induction text generalizing part with
  | nil => simp_all [splitChars]
  | cons char rest ih =>
    simp only [splitChars] at isPart
    split_ifs at isPart with same
    · rcases mem_cons.mp isPart with rfl | inside
      · simp
      · exact ih inside
    · split at isPart
      · rename_i first others parts
        rw [parts] at ih
        rcases mem_cons.mp isPart with rfl | inside
        · rw [mem_cons, not_or]
          exact ⟨Ne.symm same, ih mem_cons_self⟩
        · exact ih (.tail _ inside)
      · obtain rfl := mem_singleton.mp isPart
        simpa using Ne.symm same

theorem splitChars_append (separator : Char) (before after : List Char) :
    splitChars separator (before ++ separator :: after) =
      splitChars separator before ++ splitChars separator after := by
  induction before with
  | nil => simp [splitChars]
  | cons char rest ih =>
    rw [cons_append, splitChars, splitChars, ih]
    split_ifs with same
    · rfl
    · cases parts : splitChars separator rest with
      | nil => exact absurd parts (splitChars_ne_nil separator rest)
      | cons part others => rfl

theorem splitChars_of_not_mem {text : List Char} (absent : separator ∉ text) :
    splitChars separator text = [text] := by
  induction text with
  | nil => rfl
  | cons char rest ih =>
    have ⟨different, restAbsent⟩ := not_or.mp (mt mem_cons.mpr absent)
    rw [splitChars, if_neg (Ne.symm different), ih restAbsent]

theorem getLast?_split (before after : String) (absent : separator ∉ after.toList) :
    (split (before ++ singleton separator ++ after) separator).getLast? = some after := by
  have chars : (before ++ singleton separator ++ after).toList =
      before.toList ++ separator :: after.toList := by simp
  rw [split, chars, splitChars_append, splitChars_of_not_mem absent]
  simp

theorem not_mem_split {part : String} (isPart : part ∈ split text separator) :
    separator ∉ part.toList := by
  obtain ⟨chars, inside, rfl⟩ := mem_map.mp isPart
  rw [toList_ofList]
  exact not_mem_splitChars inside

theorem split_injective (separator : Char)
    (same : split first separator = split second separator) : first = second := by
  have parts := congrArg (List.map toList) same
  simp only [split, List.map_map, Function.comp_def, toList_ofList, map_id'] at parts
  apply toList_injective
  rw [← intercalate_splitChars separator first.toList, parts, intercalate_splitChars]

theorem splitOnceChars_append {before : List Char} (after : List Char)
    (absent : separator ∉ before) :
    splitOnceChars separator (before ++ separator :: after) = some (before, after) := by
  induction before with
  | nil => simp [splitOnceChars]
  | cons char rest ih =>
    rw [mem_cons, not_or] at absent
    simp [splitOnceChars, Ne.symm absent.1, ih absent.2]

theorem trimStartMatches_of_cons (starts : text.toList = separator :: rest) {parts : List String}
    (splits : split (ofList rest) separator = first :: parts) (solid : first ≠ "") :
    trimStartMatches text separator = ofList rest := by
  cases rest with
  | nil =>
    simp only [split, toList_ofList, splitChars, map_cons, cons.injEq] at splits
    exact absurd splits.1.symm solid
  | cons char rest =>
    by_cases same : char = separator
    · simp only [split, toList_ofList, splitChars, same, if_true, map_cons, cons.injEq] at splits
      exact absurd splits.1.symm solid
    · simp [trimStartMatches, starts, same]

theorem stripPrefix_char {rest : String} (char : Char)
    (strips : stripPrefix text (singleton char) = some rest) :
    ∃ chars, text.toList = char :: chars ∧ rest = ofList chars := by
  unfold stripPrefix at strips
  split_ifs at strips with starts
  have ⟨chars, whole⟩ := (startsWith_iff _ _).mp starts
  rw [← Option.some.inj strips, ← whole]
  simp

theorem decimal_injective : Function.Injective (toString : Nat → String) := by
  intro first second same
  have digits : Nat.toDigits 10 first = Nat.toDigits 10 second := by
    simpa [toString, Nat.repr] using congrArg toList same
  simpa using congrArg (fun digits => Nat.ofDigitChars 10 digits 0) digits

def utf8 (text : String) : List UInt8 := text.toList.flatMap String.utf8EncodeChar

theorem utf8_append (first second : String) :
    utf8 (first ++ second) = utf8 first ++ utf8 second := by
  simp [utf8]

theorem utf8_injective (same : utf8 first = utf8 second) : first = second := by
  have bytes (text : String) : (utf8 text).toByteArray = text.toByteArray := utf8Encode_toList
  have equal := congrArg List.toByteArray same
  rw [bytes, bytes] at equal
  exact toByteArray_inj.mp equal

theorem utf8EncodeChar_ne_255 (char : Char) : ∀ byte ∈ utf8EncodeChar char, byte ≠ 255 := by
  have small (value : Nat) (bound : value < 255) : UInt8.ofNat value ≠ 255 := by
    intro equal
    have values := congrArg UInt8.toNat equal
    change value % 256 = 255 at values
    omega
  intro byte member
  unfold utf8EncodeChar at member
  dsimp only at member
  split_ifs at member
  all_goals
    simp only [mem_cons, not_mem_nil, or_false] at member
    rcases member with rfl | rfl | rfl | rfl <;> exact small _ (by omega)

theorem utf8_ne_255 (text : String) : ∀ byte ∈ utf8 text, byte ≠ 255 := by
  intro byte member
  obtain ⟨char, -, inside⟩ := mem_flatMap.mp member
  exact utf8EncodeChar_ne_255 char byte inside

end Text
