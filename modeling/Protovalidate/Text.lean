import Protovalidate.Lib.Languages
import Protovalidate.Regex
import Protovalidate.Standard

/-!
# Formats that a pattern defines

UUIDs, ULIDs, Protobuf names and HTTP header names and values. In the pattern of a
header name a dash stands between two other characters, where it makes a range of
them, with the comma inside.
-/

namespace Protovalidate

open Regexes

/-- The patterns of the formats. -/
def PATTERNS : List String :=
  [UUID, TUUID, ULID, PROTOBUF_FQN, PROTOBUF_DOT_FQN, HEADER_NAME_STRICT, HEADER_NAME_LOOSE,
    HEADER_VALUE_STRICT, HEADER_VALUE_LOOSE]

section Formats
variable (cel : Bool) (inner : Regexes.Engine)

/-- Whether a text has a format. A pattern that does not compile is an error. -/
def isFormat (pattern s : String) : Except String Bool :=
  (regexNew cel inner pattern).map fun regex => regex s

def isUuid : String → Except String Bool := isFormat cel inner UUID

def isTuuid : String → Except String Bool := isFormat cel inner TUUID

def isUlid : String → Except String Bool := isFormat cel inner ULID

def isProtobufFqn : String → Except String Bool := isFormat cel inner PROTOBUF_FQN

def isProtobufDotFqn : String → Except String Bool := isFormat cel inner PROTOBUF_DOT_FQN

/-- An HTTP header name; loose only excludes NUL, LF and CR. -/
def isHeaderName (s : String) (strict : Bool) : Except String Bool :=
  if strict then isFormat cel inner HEADER_NAME_STRICT s
  else isFormat cel inner HEADER_NAME_LOOSE s

/-- An HTTP header value; loose only excludes NUL, LF and CR. -/
def isHeaderValue (s : String) (strict : Bool) : Except String Bool :=
  if strict then isFormat cel inner HEADER_VALUE_STRICT s
  else isFormat cel inner HEADER_VALUE_LOOSE s

end Formats

/-- The scanner leaves the patterns as they are. -/
theorem asciiClasses_patterns : ∀ pattern ∈ PATTERNS, asciiClasses pattern = pattern := by
  decide +kernel

section Compiled
variable {cel : Bool} {inner : Regexes.Engine} {pattern : String}

theorem new_pattern (member : pattern ∈ PATTERNS) :
    regexNew cel inner pattern = inner.compile pattern := by
  cases cel with
  | true => rfl
  | false => exact congrArg inner.compile (asciiClasses_patterns pattern member)

theorem isFormat_iff (member : pattern ∈ PATTERNS) (ordinary : inner.Ordinary pattern)
    {expr : Expr} (parsed : parse pattern = some expr) (s : String) :
    isFormat cel inner pattern s = .ok true ↔ expr.Matches s.toList := by
  obtain ⟨matcher, compiled, found⟩ := ordinary expr parsed
  have ran : isFormat cel inner pattern s = .ok (matcher s) := by
    rw [isFormat, new_pattern member, compiled]
    rfl
  rw [ran, Except.ok.injEq, found]

/-- What has a format are the texts of its pattern. -/
theorem isFormat_pattern (pattern : Pattern) (member : pattern.text ∈ PATTERNS)
    (ordinary : inner.Ordinary pattern.text) (s : String) :
    isFormat cel inner pattern.text s = .ok true ↔ s.toList ∈ pattern.language := by
  rw [isFormat_iff member ordinary pattern.parsed, pattern.matches_iff]

end Compiled

/-- The characters of the class in the pattern of a header name. -/
def headerNameSet : CharSet where
  negated := false
  ranges := [('0', '9'), ('a', 'z'), ('A', 'Z'), ('!', '!'), ('#', '#'), ('$', '$'), ('%', '%'),
    ('&', '&'), ('\'', '\''), ('*', '*'), ('+', '.'), ('^', '^'), ('_', '_'), ('|', '|'), ('~', '~'),
    ('\x60', '\x60')]

theorem parse_headerName : parse HEADER_NAME_STRICT =
    some (.seq .start (.seq (.alt (one ':') .empty) (.seq (.seq (.set headerNameSet)
      (.star (.set headerNameSet))) (.seq .stop .empty)))) := by
  decide +kernel

/-- A character of a token in RFC 7230. -/
def isTokenChar (c : Char) : Bool := c.isAlphanum || "!#$%&'*+-.^_\x60|~".toList.contains c

/-- A token, after a colon or not. -/
def IsHeaderName (s : List Char) : Prop :=
  ∃ token, (s = token ∨ s = ':' :: token) ∧ token ≠ [] ∧ ∀ c ∈ token, isTokenChar c = true

/-- Characters of tokens and commas, with a comma at least, after a colon or not. -/
def HasComma (s : List Char) : Prop :=
  ∃ name, (s = name ∨ s = ':' :: name) ∧ ',' ∈ name ∧
    ∀ c ∈ name, isTokenChar c = true ∨ c = ','

/-- The class has the characters of tokens, and the comma. -/
theorem headerNameSet_has (c : Char) :
    headerNameSet.has c = true ↔ isTokenChar c = true ∨ c = ',' := by
  have range : ∀ low high : Char, low ≤ c ∧ c ≤ high ↔
      low.toNat ≤ c.toNat ∧ c.toNat ≤ high.toNat := by
    intro low high
    rw [Char.le_def, Char.le_def, UInt32.le_iff_toNat_le, UInt32.le_iff_toNat_le]
    rfl
  have equal : ∀ d : Char, c = d ↔ c.toNat = d.toNat := fun d => Char.toNat_inj.symm
  have word : c.isAlphanum = true ↔ ('A' ≤ c ∧ c ≤ 'Z') ∨ ('a' ≤ c ∧ c ≤ 'z') ∨
      ('0' ≤ c ∧ c ≤ '9') := by
    change ((decide ('A' ≤ c ∧ c ≤ 'Z') || (decide ('a' ≤ c) && decide (c ≤ 'z'))) ||
      (decide ('0' ≤ c) && decide (c ≤ '9'))) = true ↔ _
    simp only [Bool.or_eq_true, Bool.and_eq_true, decide_eq_true_eq, or_assoc]
  have set : headerNameSet.has c = true ↔
      ∃ range ∈ headerNameSet.ranges, range.1 ≤ c ∧ c ≤ range.2 := by
    simp [CharSet.has, headerNameSet]
  have punctuation : "!#$%&'*+-.^_\x60|~".toList.contains c = true ↔
      ∃ d ∈ "!#$%&'*+-.^_\x60|~".toList, c.toNat = d.toNat := by
    simp only [List.contains_iff_mem, ← equal]
    simp
  have listed : "!#$%&'*+-.^_\x60|~".toList =
      ['!', '#', '$', '%', '&', '\'', '*', '+', '-', '.', '^', '_', '\x60', '|', '~'] := by
    decide
  rw [set, isTokenChar, Bool.or_eq_true, word, punctuation, equal, listed]
  simp only [headerNameSet, List.mem_cons, List.not_mem_nil, or_false, exists_eq_or_imp,
    exists_eq_left, range]
  simp only [Char.reduceToNat]
  omega

section HeaderName
variable {s : List Char}

theorem hasComma_not_name (comma : HasComma s) : ¬IsHeaderName s := by
  rintro ⟨token, shape', some, tokens⟩
  obtain ⟨name, shape, member, -⟩ := comma
  have present : ',' ∈ token := by
    rcases shape with rfl | rfl <;> rcases shape' with same | same
    · rwa [← same]
    · rw [same] at member
      exact (List.mem_cons.mp member).resolve_left (by decide)
    · rw [← same]
      exact List.mem_cons_of_mem _ member
    · rwa [← (List.cons.inj same).2]
  exact absurd (tokens ',' present) (by decide)

/-- What the pattern matches is a name, or has a comma. -/
theorem matches_headerName :
    (∃ name, (s = name ∨ s = ':' :: name) ∧ name ≠ [] ∧
      ∀ c ∈ name, headerNameSet.has c = true) ↔ IsHeaderName s ∨ HasComma s := by
  simp only [headerNameSet_has]
  constructor
  · rintro ⟨name, shape, some, all⟩
    by_cases comma : ',' ∈ name
    · exact .inr ⟨name, shape, comma, all⟩
    · refine .inl ⟨name, shape, some, fun c member => (all c member).resolve_right ?_⟩
      rintro rfl
      exact comma member
  · rintro (⟨token, shape, some, tokens⟩ | ⟨name, shape, comma, all⟩)
    · exact ⟨token, shape, some, fun c member => .inl (tokens c member)⟩
    · exact ⟨name, shape, List.ne_nil_of_mem comma, all⟩

end HeaderName

/-- The strict format is as documented for every text but those that are names with a
comma. -/
theorem isHeaderName_iff (cel : Bool) (inner : Regexes.Engine)
    (ordinary : inner.Ordinary HEADER_NAME_STRICT) (s : String) :
    (isHeaderName cel inner s true = .ok true ↔ IsHeaderName s.toList) ↔ ¬HasComma s.toList := by
  have listed : HEADER_NAME_STRICT ∈ PATTERNS := by simp [PATTERNS]
  obtain ⟨matcher, compiled, found⟩ := ordinary _ parse_headerName
  have accepts : isHeaderName cel inner s true = .ok true ↔
      IsHeaderName s.toList ∨ HasComma s.toList := by
    have ran : isHeaderName cel inner s true = .ok (matcher s) := by
      rw [isHeaderName, if_pos rfl, isFormat, new_pattern listed, compiled]
      rfl
    rw [ran, Except.ok.injEq, found, matches_anchored, matches_headerName]
  rw [accepts]
  constructor
  · intro same comma
    exact hasComma_not_name comma (same.mp (.inr comma))
  · intro without
    exact ⟨fun either => either.resolve_right without, .inl⟩

/-- Two names with a comma between them. -/
theorem comma_accepted :
    isHeaderName false Regexes.Engine.backtracking "Accept,Cookie" true = .ok true ∧
      ¬IsHeaderName "Accept,Cookie".toList := by
  refine ⟨by decide +kernel, hasComma_not_name ?_⟩
  have listed : "Accept,Cookie".toList.all (fun c => isTokenChar c || c == ',') = true := by
    decide +kernel
  refine ⟨"Accept,Cookie".toList, .inl rfl, by decide, fun c member => ?_⟩
  simpa using List.all_eq_true.mp listed c member

/-- A name, and one of a pseudo-header. -/
theorem isHeaderName_iff_names :
    (isHeaderName false Regexes.Engine.backtracking "Content-Type" true = .ok true ↔
      IsHeaderName "Content-Type".toList) ∧
    (isHeaderName true Regexes.Engine.backtracking ":authority" true = .ok true ↔
      IsHeaderName ":authority".toList) := by
  have without : ∀ s : List Char, ',' ∉ s → ¬HasComma s := by
    rintro s absent ⟨name, rfl | rfl, member, -⟩
    · exact absent member
    · exact absent (List.mem_cons_of_mem _ member)
  exact ⟨(isHeaderName_iff _ _ (Regexes.Engine.backtracking_ordinary _) _).mpr
      (without _ (by decide)),
    (isHeaderName_iff _ _ (Regexes.Engine.backtracking_ordinary _) _).mpr (without _ (by decide))⟩

end Protovalidate
