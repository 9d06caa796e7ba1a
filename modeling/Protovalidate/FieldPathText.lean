import Protovalidate.Lib.Decimal
import Protovalidate.Validate

/-!
# Field paths as text

A field path prints as its names with their subscripts, separated by points. The
text is read back from the left: a name ends where no letter, digit or underscore
follows, a key in quotes at the first quote that is not escaped.
-/

namespace Protovalidate

open Numeral

/-- Writes a character of a key. -/
def escapeChar : Char → List Char
  | '\\' => ['\\', '\\']
  | '"' => ['\\', '"']
  | '\r' => ['\\', 'r']
  | '\n' => ['\\', 'n']
  | c => [c]

def writeSubscript : Option Subscript → String
  | none => ""
  | some (.index index) | some (.uintKey index) => "[" ++ toString index ++ "]"
  | some (.intKey key) => "[" ++ toString key ++ "]"
  | some (.boolKey key) => "[" ++ toString key ++ "]"
  | some (.stringKey key) => "[\"" ++ String.ofList (key.toList.flatMap escapeChar) ++ "\"]"

/-- Writes the element at an index. The names of extensions are already
bracketed, as in `[pkg.ext]`. -/
def writeElement (i : Nat) (element : FieldPathElement) : String :=
  let name := element.fieldName.getD ""
  (if decide (i > 0) && !(['['].isPrefixOf name.toList) then "." else "") ++ name ++
    writeSubscript element.subscript

def writeFieldPath (path : FieldPath) : String :=
  String.join (path.elements.zipIdx.map fun item => writeElement item.2 item.1)

/-! ### What is read back -/

/-- A subscript without the kind of its number. -/
inductive Key
  | number (value : Int)
  | bool (value : Bool)
  | text (value : String)
  deriving DecidableEq, Repr

def Subscript.key : Subscript → Key
  | .index i => .number i
  | .uintKey u => .number u
  | .intKey i => .number i
  | .boolKey b => .bool b
  | .stringKey s => .text s

/-- The name and the subscript of an element. -/
def FieldPathElement.spoken (element : FieldPathElement) : String × Option Key :=
  (element.fieldName.getD "", element.subscript.map Subscript.key)

def isNameChar (c : Char) : Bool := c.isAlphanum || c == '_'

/-- An identifier of the language: letters, digits and underscores, of which the
first is no digit. -/
structure IsIdentifier (name : String) : Prop where
  chars : ∀ c ∈ name.toList, isNameChar c = true
  first : ∃ c, name.toList.head? = some c ∧ c.isDigit = false

/-- Every element has an identifier for its name. -/
def FieldPath.Named (path : FieldPath) : Prop :=
  ∀ element ∈ path.elements, ∃ name, element.fieldName = some name ∧ IsIdentifier name

/-- The character that an escape stands for. -/
def unescapeChar : Char → Option Char
  | '\\' => some '\\'
  | '"' => some '"'
  | 'r' => some '\r'
  | 'n' => some '\n'
  | _ => none

/-- The text up to a quote that is not escaped. -/
def readQuoted : List Char → Option (List Char × List Char)
  | [] => none
  | '"' :: s => some ([], s)
  | '\\' :: c :: s => do
    let c ← unescapeChar c
    let (text, rest) ← readQuoted s
    return (c :: text, rest)
  | c :: s => do
    let (text, rest) ← readQuoted s
    return (c :: text, rest)

def readNumber : List Char → Option (Key × List Char)
  | '-' :: s => do
    let (digits, rest) ← readDigits s
    return (.number (-(Nat.ofDigitChars 10 digits 0 : Nat)), rest)
  | s => do
    let (digits, rest) ← readDigits s
    return (.number (Nat.ofDigitChars 10 digits 0 : Nat), rest)

def readKey : List Char → Option (Key × List Char)
  | '"' :: s => do
    let (text, rest) ← readQuoted s
    return (.text (String.ofList text), rest)
  | 't' :: 'r' :: 'u' :: 'e' :: rest => some (.bool true, rest)
  | 'f' :: 'a' :: 'l' :: 's' :: 'e' :: rest => some (.bool false, rest)
  | s => readNumber s

def readSubscript : List Char → Option (Option Key × List Char)
  | '[' :: s => do
    let (key, s) ← readKey s
    if s.head? = some ']' then return (some key, s.drop 1) else none
  | s => some (none, s)

def readElement (s : List Char) : Option ((String × Option Key) × List Char) := do
  let (name, s) := s.span isNameChar
  if name.isEmpty then none
  else
    let (key, s) ← readSubscript s
    return ((String.ofList name, key), s)

/-- Elements separated by points, up to a number of them. -/
def readElements : Nat → List Char → Option (List (String × Option Key))
  | 0, _ => none
  | fuel + 1, s => do
    let (element, s) ← readElement s
    match s with
    | [] => return [element]
    | c :: s => if c = '.' then return element :: (← readElements fuel s) else none

/-- Reads a field path whose names are identifiers. -/
def readFieldPath (text : String) : Option (List (String × Option Key)) :=
  if text = "" then some [] else readElements text.toList.length text.toList

/-! ### Round trip -/

section Keys
variable {s rest : List Char}

theorem readQuoted_escaped {c d : Char} (stands : unescapeChar c = some d) (s : List Char) :
    readQuoted ('\\' :: c :: s) = (readQuoted s).map fun found => (d :: found.1, found.2) := by
  rw [readQuoted, stands]
  cases readQuoted s <;> rfl

/-- One character of a key is read back from what is written for it. -/
theorem readQuoted_escape (c : Char) (s : List Char) :
    readQuoted (escapeChar c ++ s) =
      (readQuoted s).map fun found => (c :: found.1, found.2) := by
  unfold escapeChar
  split
  · exact readQuoted_escaped rfl s
  · exact readQuoted_escaped rfl s
  · exact readQuoted_escaped rfl s
  · exact readQuoted_escaped rfl s
  · rename_i backslash quote _ _
    rw [List.singleton_append, readQuoted]
    · cases readQuoted s <;> rfl
    · exact quote
    · intro _ _ same _
      exact backslash same

theorem readQuoted_write (key rest : List Char) :
    readQuoted (key.flatMap escapeChar ++ '"' :: rest) = some (key, rest) := by
  induction key with
  | nil => simp [readQuoted]
  | cons c key ih =>
    rw [List.flatMap_cons, List.append_assoc, readQuoted_escape, ih]
    rfl

theorem bracket_noDigit : NoDigit (']' :: rest) := by
  intro c first
  cases first
  decide

/-- A number ends at its bracket. -/
theorem readNumber_write (n : Nat) (rest : List Char) :
    readNumber (Nat.toDigits 10 n ++ ']' :: rest) = some (.number n, ']' :: rest) := by
  have digits := canonical_toDigits (n := n)
  have unsigned : ∀ s, Nat.toDigits 10 n ++ ']' :: rest ≠ '-' :: s := by
    intro s sign
    obtain ⟨c, more, written⟩ := List.exists_cons_of_ne_nil digits.nonempty
    rw [written, List.cons_append, List.cons.injEq] at sign
    have digit := digits.digits c (by simp [written])
    rw [sign.1] at digit
    exact absurd digit (by decide)
  rw [readNumber]
  · rw [readDigits_append digits.nonempty digits.digits bracket_noDigit]
    simp [Nat.ofDigitChars_ten_toDigits]
  · exact unsigned

theorem readNumber_negative (n : Nat) (rest : List Char) :
    readNumber ('-' :: Nat.toDigits 10 n ++ ']' :: rest) = some (.number (-n), ']' :: rest) := by
  have digits := canonical_toDigits (n := n)
  rw [List.cons_append, readNumber,
    readDigits_append digits.nonempty digits.digits bracket_noDigit]
  simp [Nat.ofDigitChars_ten_toDigits]

/-- What is not in quotes and no word is a number. -/
theorem readKey_number {c : Char} (numeral : c.isDigit ∨ c = '-') (s : List Char) :
    readKey (c :: s) = readNumber (c :: s) := by
  have other : c ≠ '"' ∧ c ≠ 't' ∧ c ≠ 'f' := by
    rcases numeral with digit | rfl
    · refine ⟨?_, ?_, ?_⟩ <;>
        · rintro rfl
          exact absurd digit (by decide)
    · decide
  rw [readKey]
  · exact fun _ same => other.1 (List.cons.inj same).1
  · exact fun _ same => other.2.1 (List.cons.inj same).1
  · exact fun _ same => other.2.2 (List.cons.inj same).1

theorem readKey_digits (n : Nat) :
    readKey (Nat.toDigits 10 n ++ ']' :: rest) = some (.number n, ']' :: rest) := by
  obtain ⟨c, more, written⟩ := List.exists_cons_of_ne_nil (canonical_toDigits (n := n)).nonempty
  have digit := (canonical_toDigits (n := n)).digits c (by simp [written])
  have read := readNumber_write n rest
  rw [written] at read ⊢
  rw [List.cons_append, readKey_number (.inl digit)]
  exact read

/-- A subscript is read back up to the kind of its number. -/
theorem readSubscript_write (subscript : Subscript) (rest : List Char) :
    readSubscript ((writeSubscript (some subscript)).toList ++ rest) =
      some (some subscript.key, rest) := by
  have bracketed : ∀ (text : List Char) (key : Key),
      readKey (text ++ ']' :: rest) = some (key, ']' :: rest) →
      readSubscript ('[' :: (text ++ ']' :: rest)) = some (some key, rest) := by
    intro text key read
    simp [readSubscript, read]
  have natural : ∀ n : Nat, readSubscript (("[" ++ toString n ++ "]").toList ++ rest) =
      some (some (.number n), rest) := by
    intro n
    rw [← bracketed _ _ (readKey_digits n)]
    simp
  cases subscript with
  | index i => exact natural i
  | uintKey u => exact natural u
  | intKey i =>
    cases i with
    | ofNat n => exact natural n
    | negSucc n =>
      have read := readNumber_negative (n + 1) rest
      rw [List.cons_append] at read
      have key := (readKey_number (.inr rfl) _).trans read
      rw [← List.cons_append] at key
      have written := bracketed _ _ key
      have text : (Int.negSucc n).repr.toList = '-' :: Nat.toDigits 10 (n + 1) := by
        change ("-" ++ Nat.repr (n + 1)).toList = _
        simp [Nat.toList_repr]
      have whole : (writeSubscript (some (.intKey (Int.negSucc n)))).toList ++ rest =
          '[' :: ('-' :: Nat.toDigits 10 (n + 1) ++ ']' :: rest) := by
        simp [writeSubscript, text]
      rw [whole, written]
      rfl
  | boolKey b =>
    cases b with
    | true => exact bracketed ['t', 'r', 'u', 'e'] (.bool true) rfl
    | false => exact bracketed ['f', 'a', 'l', 's', 'e'] (.bool false) rfl
  | stringKey s =>
    have read : readKey ('"' :: s.toList.flatMap escapeChar ++ ['"'] ++ ']' :: rest) =
        some (.text s, ']' :: rest) := by
      simp [readKey, readQuoted_write]
    have whole : (writeSubscript (some (.stringKey s))).toList ++ rest =
        '[' :: ('"' :: s.toList.flatMap escapeChar ++ ['"'] ++ ']' :: rest) := by
      simp [writeSubscript]
    rw [whole]
    exact bracketed _ _ read

/-- Where an element ends. -/
def ElementEnds (rest : List Char) : Prop := ∀ c, rest.head? = some c → c = '.'

theorem readSubscript_none (ends : ElementEnds rest) : readSubscript rest = some (none, rest) := by
  rw [readSubscript]
  rintro s rfl
  exact absurd (ends '[' rfl) (by decide)

end Keys

section Elements
variable {element : FieldPathElement} {name : String} {rest : List Char}

theorem afterName_stops (ends : ElementEnds rest) (subscript : Option Subscript) (c : Char)
    (first : ((writeSubscript subscript).toList ++ rest).head? = some c) :
    isNameChar c = false := by
  cases subscript with
  | none =>
    have dot := ends c (by simpa [writeSubscript] using first)
    rw [dot]
    decide
  | some subscript =>
    have bracket : c = '[' := by
      cases subscript <;> simpa [writeSubscript, eq_comm] using first
    rw [bracket]
    decide

/-- An element is read back from its name and its subscript. -/
theorem readElement_write (named : element.fieldName = some name) (identifier : IsIdentifier name)
    (ends : ElementEnds rest) :
    readElement ((name ++ writeSubscript element.subscript).toList ++ rest) =
      some (element.spoken, rest) := by
  have split : ((name ++ writeSubscript element.subscript).toList ++ rest).span isNameChar =
      (name.toList, (writeSubscript element.subscript).toList ++ rest) := by
    rw [String.toList_append, List.append_assoc]
    exact span_append identifier.chars (afterName_stops ends element.subscript)
  have some : name.toList.isEmpty = false := by
    obtain ⟨c, first, -⟩ := identifier.first
    rw [List.isEmpty_eq_false_iff]
    intro none
    rw [none] at first
    cases first
  have subscript : readSubscript ((writeSubscript element.subscript).toList ++ rest) =
      Option.some (element.subscript.map Subscript.key, rest) := by
    cases element.subscript with
    | none => exact readSubscript_none ends
    | some subscript => exact readSubscript_write subscript rest
  simp only [readElement, split, some, Bool.false_eq_true, if_false, subscript,
    Option.bind_eq_bind, Option.bind_some, String.ofList_toList, FieldPathElement.spoken, named,
    Option.getD_some, Option.pure_def]

variable {path : List FieldPathElement}

/-- The text of an element, after the first. -/
def laterElement (element : FieldPathElement) : List Char :=
  '.' :: ((element.fieldName.getD "") ++ writeSubscript element.subscript).toList

theorem later_ends (path : List FieldPathElement) : ElementEnds (path.flatMap laterElement) := by
  intro c first
  cases path with
  | nil => cases first
  | cons element path =>
    cases first
    rfl

/-- Elements are read back one by one. -/
theorem readElements_write
    (named : ∀ element ∈ path, ∃ name, element.fieldName = some name ∧ IsIdentifier name)
    {first : FieldPathElement} (firstNamed : first.fieldName = some name)
    (identifier : IsIdentifier name) {fuel : Nat} (enough : path.length < fuel) :
    readElements fuel ((name ++ writeSubscript first.subscript).toList ++
        path.flatMap laterElement) =
      some (first.spoken :: path.map FieldPathElement.spoken) := by
  induction path generalizing first name fuel with
  | nil =>
    obtain ⟨fuel, rfl⟩ : ∃ more, fuel = more + 1 := ⟨fuel - 1, by simp at enough; omega⟩
    rw [readElements, readElement_write firstNamed identifier (later_ends [])]
    rfl
  | cons second path ih =>
    obtain ⟨fuel, rfl⟩ : ∃ more, fuel = more + 1 := ⟨fuel - 1, by simp at enough; omega⟩
    rw [List.length_cons] at enough
    obtain ⟨next, secondNamed, nextIdentifier⟩ := named second List.mem_cons_self
    have rest := ih (fun element member => named element (List.mem_cons_of_mem _ member))
      secondNamed nextIdentifier (Nat.lt_of_succ_lt_succ enough)
    have later : (second :: path).flatMap laterElement =
        '.' :: ((next ++ writeSubscript second.subscript).toList ++ path.flatMap laterElement) := by
      simp [laterElement, secondNamed]
    rw [readElements, readElement_write firstNamed identifier (later_ends _), later]
    simp only [Option.bind_eq_bind, Option.bind_some, if_true, rest]
    rfl

/-- What a path prints after its first element. -/
theorem writeFieldPath_cons (first : FieldPathElement)
    (firstNamed : first.fieldName = some name)
    (named : ∀ element ∈ path, ∃ name, element.fieldName = some name ∧ IsIdentifier name) :
    (writeFieldPath ⟨first :: path⟩).toList =
      (name ++ writeSubscript first.subscript).toList ++ path.flatMap laterElement := by
  have later : ∀ i, ((path.zipIdx (i + 1)).map fun item => writeElement item.2 item.1).flatMap
      String.toList = path.flatMap laterElement := by
    induction path with
    | nil => exact fun _ => rfl
    | cons element path ih =>
      intro i
      obtain ⟨name, elementNamed, identifier⟩ := named element List.mem_cons_self
      have plain : ['['].isPrefixOf name.toList = false := by
        obtain ⟨c, first, -⟩ := identifier.first
        cases written : name.toList with
        | nil => rfl
        | cons d more =>
          have other := identifier.chars d (by simp [written])
          have differs : d ≠ '[' := by
            rintro rfl
            exact absurd other (by decide)
          simp [List.isPrefixOf, differs.symm]
      have rest := ih (fun element member => named element (List.mem_cons_of_mem _ member)) (i + 1)
      rw [List.zipIdx_cons, List.map_cons, List.flatMap_cons, List.flatMap_cons, rest]
      simp [writeElement, laterElement, elementNamed, plain]
  have rest := later 0
  rw [writeFieldPath, String.toList_join, List.zipIdx_cons, List.map_cons, List.flatMap_cons, rest]
  simp [writeElement, firstNamed]

theorem length_le_later (path : List FieldPathElement) :
    path.length ≤ (path.flatMap laterElement).length := by
  induction path with
  | nil => exact Nat.le_refl 0
  | cons element path ih =>
    rw [List.flatMap_cons, List.length_append, List.length_cons, laterElement, List.length_cons]
    omega

theorem read_writeFieldPath {path : FieldPath} (named : path.Named) :
    readFieldPath (writeFieldPath path) = some (path.elements.map FieldPathElement.spoken) := by
  obtain ⟨elements⟩ := path
  cases elements with
  | nil => rfl
  | cons first path =>
    obtain ⟨name, firstNamed, identifier⟩ := named first List.mem_cons_self
    have later : ∀ element ∈ path, ∃ name, element.fieldName = some name ∧ IsIdentifier name :=
      fun element member => named element (List.mem_cons_of_mem first member)
    have written := writeFieldPath_cons first firstNamed later
    have long : path.length < (writeFieldPath ⟨first :: path⟩).toList.length := by
      obtain ⟨c, starts, -⟩ := identifier.first
      have some : 0 < name.toList.length := by
        rw [List.length_pos_iff]
        intro none
        rw [none] at starts
        cases starts
      have short := length_le_later path
      rw [written, String.toList_append, List.length_append, List.length_append]
      omega
    have nonempty : writeFieldPath ⟨first :: path⟩ ≠ "" := by
      intro empty
      rw [empty] at long
      exact absurd long (Nat.not_lt_zero _)
    rw [readFieldPath, if_neg nonempty, written, readElements_write later firstNamed identifier]
    · rfl
    · rwa [← written]

end Elements

/-- A field path whose names are identifiers is read back from its text, up to the
kind of the numbers among its subscripts, so that no other path has the text. -/
theorem writeFieldPath_unambiguous (path : FieldPath) (named : path.Named) :
    readFieldPath (writeFieldPath path) = some (path.elements.map FieldPathElement.spoken) ∧
    ∀ other : FieldPath, other.Named → writeFieldPath other = writeFieldPath path →
      other.elements.map FieldPathElement.spoken = path.elements.map FieldPathElement.spoken := by
  refine ⟨read_writeFieldPath named, fun other otherNamed same => ?_⟩
  have read := read_writeFieldPath otherNamed
  rw [same, read_writeFieldPath named] at read
  exact (Option.some.inj read).symm

/-- An index, and a key that holds everything that is escaped. -/
theorem writeFieldPath_unambiguous_keys :
    writeFieldPath ⟨[{ fieldName := some "b", subscript := some (.index 0) },
      { fieldName := some "f", subscript := some (.stringKey "x\\\"\r\n") }]⟩ =
        "b[0].f[\"x\\\\\\\"\\r\\n\"]" ∧
    readFieldPath "b[0].f[\"x\\\\\\\"\\r\\n\"]" =
      some [("b", some (.number 0)), ("f", some (.text "x\\\"\r\n"))] := by
  have written : writeFieldPath ⟨[{ fieldName := some "b", subscript := some (.index 0) },
      { fieldName := some "f", subscript := some (.stringKey "x\\\"\r\n") }]⟩ =
        "b[0].f[\"x\\\\\\\"\\r\\n\"]" := by
    decide
  refine ⟨written, written ▸ (writeFieldPath_unambiguous _ ?_).1⟩
  intro element member
  simp only [List.mem_cons, List.not_mem_nil, or_false] at member
  rcases member with rfl | rfl
  · exact ⟨"b", rfl, List.all_eq_true.mp (by decide), 'b', by decide, by decide⟩
  · exact ⟨"f", rfl, List.all_eq_true.mp (by decide), 'f', by decide, by decide⟩
end Protovalidate
