import Mathlib.Data.List.Basic

/-!
# String slices

A slice is the characters of a string. Its length and the positions in it count
the bytes of its UTF-8 encoding, and no position is inside a character.
-/

namespace Slice

/-- The UTF-8 encoding. -/
def bytes (s : List Char) : List UInt8 := s.flatMap String.utf8EncodeChar

def len (s : List Char) : Nat := (bytes s).length

/-- The two parts of a slice at a position, `none` past its end or inside a
character. -/
def splitAt : List Char → Nat → Option (List Char × List Char)
  | s, 0 => some ([], s)
  | [], _ + 1 => none
  | c :: s, n + 1 =>
    if c.utf8Size ≤ n + 1 then
      (splitAt s (n + 1 - c.utf8Size)).map (fun parts => (c :: parts.1, parts.2))
    else none

/-- `&s[start..stop]`, `none` where it is out of range. -/
def range (s : List Char) (start stop : Nat) : Option (List Char) := do
  let (front, _) ← splitAt s stop
  let (_, part) ← splitAt front start
  return part

/-- The position of the first `c`. -/
def find (c : Char) : List Char → Option Nat
  | [] => none
  | d :: s => if d = c then some 0 else (find c s).map (· + d.utf8Size)

/-- The position of the last `c`. -/
def rfind (c : Char) : List Char → Option Nat
  | [] => none
  | d :: s =>
    match rfind c s with
    | some i => some (i + d.utf8Size)
    | none => if d = c then some 0 else none

/-- What stands before and after the first `pattern`. -/
def splitOnce (pattern : List Char) : List Char → Option (List Char × List Char)
  | [] => if pattern.isEmpty then some ([], []) else none
  | d :: s =>
    if pattern.isPrefixOf (d :: s) then some ([], (d :: s).drop pattern.length)
    else (splitOnce pattern s).map (fun parts => (d :: parts.1, parts.2))

def stripSuffix (c : Char) (s : List Char) : Option (List Char) :=
  if s.getLast? = some c then some s.dropLast else none

variable {s a b : List Char} {c d : Char}

@[simp] theorem bytes_nil : bytes [] = [] := rfl

@[simp] theorem bytes_cons : bytes (c :: s) = String.utf8EncodeChar c ++ bytes s := rfl

@[simp] theorem bytes_append : bytes (a ++ b) = bytes a ++ bytes b := by
  simp [bytes]

@[simp] theorem len_nil : len [] = 0 := rfl

@[simp] theorem len_cons : len (c :: s) = c.utf8Size + len s := by
  simp [len]

@[simp] theorem len_append : len (a ++ b) = len a + len b := by
  simp [len]

@[simp] theorem bytes_isEmpty : (bytes s).isEmpty = s.isEmpty := by
  cases s with
  | nil => rfl
  | cons c s => simp [String.utf8EncodeChar_ne_nil]

/-! ### Positions -/

/-- The position after a part of a slice splits it there. -/
@[simp] theorem splitAt_len : splitAt (a ++ b) (len a) = some (a, b) := by
  induction a with
  | nil =>
    cases b <;> rfl
  | cons c a ih =>
    have positive := c.utf8Size_pos
    have shape : len (c :: a) = (len a + c.utf8Size - 1) + 1 := by
      rw [len_cons]
      omega
    rw [List.cons_append, shape, splitAt, if_pos (by omega)]
    have rest : len a + c.utf8Size - 1 + 1 - c.utf8Size = len a := by omega
    rw [rest, ih]
    rfl

theorem range_append (pre part post : List Char) :
    range (pre ++ part ++ post) (len pre) (len pre + len part) = some part := by
  have stop : len pre + len part = len (pre ++ part) := len_append.symm
  rw [range, stop, splitAt_len]
  simp

/-- `&s[start..]`. -/
theorem range_suffix : range (a ++ b) (len a) (len (a ++ b)) = some b := by
  have whole := range_append a b []
  rw [List.append_nil] at whole
  rwa [len_append]

theorem range_prefix : range (a ++ b) 0 (len a) = some a := by
  have whole := range_append [] a b
  simpa using whole

theorem find_eq_none : find c s = none ↔ c ∉ s := by
  induction s with
  | nil => simp [find]
  | cons d s ih =>
    by_cases same : d = c
    · simp [find, same]
    · have other : ¬c = d := fun eq => same eq.symm
      simp [find, same, ih, other]

theorem find_append (absent : c ∉ a) : find c (a ++ c :: b) = some (len a) := by
  induction a with
  | nil => simp [find]
  | cons d a ih =>
    rw [List.mem_cons, not_or] at absent
    have other : ¬d = c := fun eq => absent.1 eq.symm
    rw [List.cons_append, find, if_neg other, ih absent.2, Option.map_some, len_cons,
      Nat.add_comm]

theorem rfind_eq_none : rfind c s = none ↔ c ∉ s := by
  induction s with
  | nil => simp [rfind]
  | cons d s ih =>
    cases later : rfind c s with
    | some i =>
      have present : c ∈ s := by
        by_contra absent
        rw [ih.mpr absent] at later
        cases later
      simp [rfind, later, present]
    | none =>
      have absent := ih.mp later
      by_cases same : d = c
      · simp [rfind, later, same]
      · have other : ¬c = d := fun eq => same eq.symm
        simp [rfind, later, same, absent, other]

theorem rfind_append (absent : c ∉ b) : rfind c (a ++ c :: b) = some (len a) := by
  induction a with
  | nil => simp [rfind, rfind_eq_none.mpr absent]
  | cons d a ih => simp [rfind, ih, Nat.add_comm]

/-- The last `c` of a slice has none after it. -/
theorem rfind_eq_some {i : Nat} :
    rfind c s = some i ↔ ∃ a b, s = a ++ c :: b ∧ c ∉ b ∧ i = len a := by
  constructor
  · intro found
    have present : c ∈ s := by
      by_contra absent
      rw [rfind_eq_none.mpr absent] at found
      cases found
    have reversed : c ∈ s.reverse := List.mem_reverse.mpr present
    obtain ⟨b, a, split, absent⟩ := List.eq_append_cons_of_mem reversed
    have parts : s = a.reverse ++ c :: b.reverse := by
      rw [← List.reverse_reverse s, split]
      simp
    have later : c ∉ b.reverse := fun member => absent (List.mem_reverse.mp member)
    rw [parts, rfind_append later, Option.some.injEq] at found
    exact ⟨a.reverse, b.reverse, parts, later, found.symm⟩
  · rintro ⟨a, b, rfl, absent, rfl⟩
    exact rfind_append absent

/-- A part before the last `c` ends where it is found. -/
theorem rfind_eq_len : rfind c (a ++ b) = some (len a) ↔ ∃ rest, b = c :: rest ∧ c ∉ rest := by
  constructor
  · intro found
    obtain ⟨front, rest, split, absent, position⟩ := rfind_eq_some.mp found
    have parts : splitAt (a ++ b) (len a) = some (front, c :: rest) := by
      rw [split, position, splitAt_len]
    rw [splitAt_len, Option.some.injEq, Prod.mk.injEq] at parts
    exact ⟨rest, parts.2, absent⟩
  · rintro ⟨rest, rfl, absent⟩
    exact rfind_append absent

/-- A slice splits at its last `c` in one way. -/
theorem last_split {a' b' : List Char} (same : a ++ c :: b = a' ++ c :: b') (absent : c ∉ b)
    (absent' : c ∉ b') : a = a' ∧ b = b' := by
  have found := rfind_append (a := a) absent
  rw [same, rfind_append absent', Option.some.injEq] at found
  have parts : splitAt (a' ++ c :: b') (len a) = some (a, c :: b) := by
    rw [← same, splitAt_len]
  rw [← found, splitAt_len, Option.some.injEq, Prod.mk.injEq, List.cons.injEq] at parts
  exact ⟨parts.1.symm, parts.2.2.symm⟩

/-! ### Splits -/

theorem mem_intercalate {parts : List (List Char)} (member : d ∈ [c].intercalate parts) :
    d = c ∨ ∃ part ∈ parts, d ∈ part := by
  induction parts with
  | nil => cases member
  | cons part parts ih =>
    by_cases last : parts = []
    · subst last
      rw [List.intercalate_singleton] at member
      exact .inr ⟨part, List.mem_cons_self, member⟩
    · rw [List.intercalate_cons_of_ne_nil last, List.append_assoc, List.mem_append,
        List.mem_append, List.mem_singleton] at member
      rcases member with here | separator | later
      · exact .inr ⟨part, List.mem_cons_self, here⟩
      · exact .inl separator
      · rcases ih later with separator | ⟨part', present, inside⟩
        · exact .inl separator
        · exact .inr ⟨part', List.mem_cons_of_mem _ present, inside⟩

theorem intercalate_last (parts : List (List Char)) (last : List Char) :
    ∃ front, [c].intercalate (parts ++ [last]) = front ++ last := by
  induction parts with
  | nil => exact ⟨[], by simp⟩
  | cons part parts ih =>
    obtain ⟨front, shape⟩ := ih
    refine ⟨part ++ [c] ++ front, ?_⟩
    rw [List.cons_append, List.intercalate_cons_of_ne_nil (by simp), shape]
    simp only [List.append_assoc]

/-- A slice splits at its first `c`. -/
theorem splitOnce_char : splitOnce [c] s = some (a, b) ↔ s = a ++ c :: b ∧ c ∉ a := by
  induction s generalizing a with
  | nil => simp [splitOnce]
  | cons d s ih =>
    by_cases same : c = d
    · subst same
      cases a with
      | nil => simp [splitOnce, List.isPrefixOf, eq_comm]
      | cons e a =>
        simp only [splitOnce, List.isPrefixOf, BEq.rfl, Bool.true_and, if_true, List.length_cons,
          List.length_nil, Nat.zero_add, List.drop_succ_cons, List.drop_zero, Option.some.injEq,
          Prod.mk.injEq, reduceCtorEq, false_and, List.cons_append, List.cons.injEq,
          List.mem_cons, not_or, false_iff]
        rintro ⟨⟨rfl, -⟩, other, -⟩
        exact other rfl
    · have next : splitOnce [c] (d :: s) =
          (splitOnce [c] s).map (fun parts => (d :: parts.1, parts.2)) := by
        simp [splitOnce, List.isPrefixOf, same]
      rw [next, Option.map_eq_some_iff]
      constructor
      · rintro ⟨⟨a', b'⟩, split, parts⟩
        cases parts
        obtain ⟨rfl, absent⟩ := ih.mp split
        exact ⟨rfl, by simp [same, absent]⟩
      · rintro ⟨shape, absent⟩
        cases a with
        | nil =>
          cases shape
          exact absurd rfl same
        | cons e a =>
          cases shape
          exact ⟨(a, b), ih.mpr ⟨rfl, fun member => absent (List.mem_cons_of_mem _ member)⟩, rfl⟩

/-- What the first `pattern` splits a slice into. -/
theorem splitOnce_append {pattern : List Char} (split : splitOnce pattern s = some (a, b)) :
    s = a ++ pattern ++ b := by
  induction s generalizing a with
  | nil =>
    by_cases empty : pattern = []
    · simp_all [splitOnce]
    · simp [splitOnce, empty] at split
  | cons d s ih =>
    by_cases starts : pattern.isPrefixOf (d :: s)
    · obtain ⟨rest, shape⟩ := List.isPrefixOf_iff_prefix.mp starts
      rw [splitOnce, if_pos starts, ← shape, List.drop_left, Option.some.injEq,
        Prod.mk.injEq] at split
      obtain ⟨rfl, rfl⟩ := split
      rw [← shape, List.nil_append]
    · rw [splitOnce, if_neg starts, Option.map_eq_some_iff] at split
      obtain ⟨⟨front, back⟩, found, parts⟩ := split
      cases parts
      rw [ih found]
      rfl

/-- A pattern is found after a part without its first character. -/
theorem splitOnce_pattern (pattern : List Char) (absent : c ∉ a) :
    splitOnce (c :: pattern) (a ++ c :: pattern ++ b) = some (a, b) := by
  induction a with
  | nil =>
    have starts : (c :: pattern).isPrefixOf (c :: (pattern ++ b)) = true :=
      List.isPrefixOf_iff_prefix.mpr ⟨b, rfl⟩
    rw [List.nil_append, List.cons_append, splitOnce, if_pos starts]
    simp
  | cons d a ih =>
    rw [List.mem_cons, not_or] at absent
    have other : (c :: pattern).isPrefixOf (d :: (a ++ c :: pattern ++ b)) = false := by
      simp [List.isPrefixOf, absent.1]
    rw [List.cons_append, List.cons_append, splitOnce, other, if_neg Bool.false_ne_true,
      ih absent.2]
    rfl

/-- A slice splits at its first `c` in one way. -/
theorem first_split {a' b' : List Char} (same : a ++ c :: b = a' ++ c :: b') (absent : c ∉ a)
    (absent' : c ∉ a') : a = a' ∧ b = b' := by
  have found : splitOnce [c] (a ++ c :: b) = some (a, b) := splitOnce_char.mpr ⟨rfl, absent⟩
  rw [same, splitOnce_char.mpr ⟨rfl, absent'⟩, Option.some.injEq, Prod.mk.injEq] at found
  exact ⟨found.1.symm, found.2.symm⟩

/-- A slice splits in one way before the first character that stops it. -/
theorem stop_split (stop : Char → Prop) {a' b' : List Char} (same : a ++ b = a' ++ b')
    (free : ∀ c ∈ a, ¬stop c) (free' : ∀ c ∈ a', ¬stop c)
    (stops : b = [] ∨ ∃ c t, b = c :: t ∧ stop c)
    (stops' : b' = [] ∨ ∃ c t, b' = c :: t ∧ stop c) : a = a' ∧ b = b' := by
  induction a generalizing a' with
  | nil =>
    cases a' with
    | nil => exact ⟨rfl, same⟩
    | cons d a' =>
      rw [List.nil_append] at same
      rcases stops with rfl | ⟨c, t, rfl, stopped⟩
      · cases same
      · cases same
        exact absurd stopped (free' _ List.mem_cons_self)
  | cons d a ih =>
    cases a' with
    | nil =>
      rw [List.nil_append] at same
      rcases stops' with rfl | ⟨c, t, rfl, stopped⟩
      · cases same
      · cases same
        exact absurd stopped (free _ List.mem_cons_self)
    | cons d' a' =>
      rw [List.cons_append, List.cons_append, List.cons.injEq] at same
      obtain ⟨rfl, rest⟩ := same
      obtain ⟨rfl, rfl⟩ := ih rest (fun c member => free c (List.mem_cons_of_mem _ member))
        fun c member => free' c (List.mem_cons_of_mem _ member)
      exact ⟨rfl, rfl⟩

theorem intercalate_append {first second : List (List Char)} (some : first ≠ [])
    (more : second ≠ []) :
    [c].intercalate (first ++ second) = [c].intercalate first ++ c :: [c].intercalate second := by
  induction first with
  | nil => exact absurd rfl some
  | cons part parts ih =>
    by_cases last : parts = []
    · subst last
      rw [List.cons_append, List.nil_append, List.intercalate_cons_of_ne_nil more,
        List.intercalate_singleton, List.append_assoc]
      rfl
    · rw [List.cons_append, List.intercalate_cons_of_ne_nil (by simp [last]), ih last,
        List.intercalate_cons_of_ne_nil last]
      simp only [List.append_assoc]

/-- What begins with the parts of `a` is `a`, or goes on after another `c`. -/
theorem splitOn_begins : a.splitOn c <+: s.splitOn c ↔ s = a ∨ ∃ rest, s = a ++ c :: rest := by
  constructor
  · rintro ⟨parts, split⟩
    have whole : [c].intercalate (a.splitOn c ++ parts) = s := by
      rw [split, List.intercalate_splitOn]
    cases parts with
    | nil =>
      rw [List.append_nil, List.intercalate_splitOn] at whole
      exact .inl whole.symm
    | cons part parts =>
      rw [intercalate_append (List.splitOn_ne_nil c a) (by simp),
        List.intercalate_splitOn] at whole
      exact .inr ⟨_, whole.symm⟩
  · rintro (rfl | ⟨rest, rfl⟩)
    · exact List.prefix_rfl
    · rw [List.splitOn_append_cons_self]
      exact List.prefix_append _ _

theorem stripSuffix_append : stripSuffix c (a ++ [c]) = some a := by
  simp [stripSuffix]

theorem stripSuffix_eq_none : stripSuffix c s = none ↔ s.getLast? ≠ some c := by
  simp [stripSuffix]

/-! ### ASCII -/

/-- `b'c'`. -/
def byte (c : Char) : UInt8 := UInt8.ofNat c.toNat

def isAsciiDigit (b : UInt8) : Bool := decide (48 ≤ b.toNat) && decide (b.toNat ≤ 57)

def isAsciiAlphabetic (b : UInt8) : Bool :=
  (decide (65 ≤ b.toNat) && decide (b.toNat ≤ 90)) ||
    (decide (97 ≤ b.toNat) && decide (b.toNat ≤ 122))

def isAsciiAlphanumeric (b : UInt8) : Bool := isAsciiAlphabetic b || isAsciiDigit b

/-- A character is encoded as itself, or in bytes that are no character. -/
theorem encode_cases (c : Char) :
    (c.toNat < 128 ∧ String.utf8EncodeChar c = [byte c]) ∨
      (128 ≤ c.toNat ∧ ∀ b ∈ String.utf8EncodeChar c, 128 ≤ b.toNat) := by
  have same : c.toNat = c.val.toNat := rfl
  fun_cases String.utf8EncodeChar c with
  | case1 v small =>
    left
    exact ⟨by omega, rfl⟩
  | case2 v large =>
    right
    refine ⟨by omega, ?_⟩
    simp only [List.mem_cons, List.not_mem_nil, or_false, forall_eq_or_imp, forall_eq,
      UInt8.toNat_ofNat']
    omega
  | case3 v large =>
    right
    refine ⟨by omega, ?_⟩
    simp only [List.mem_cons, List.not_mem_nil, or_false, forall_eq_or_imp, forall_eq,
      UInt8.toNat_ofNat']
    omega
  | case4 v large =>
    right
    refine ⟨by omega, ?_⟩
    simp only [List.mem_cons, List.not_mem_nil, or_false, forall_eq_or_imp, forall_eq,
      UInt8.toNat_ofNat']
    omega

theorem byte_toNat (small : c.toNat < 128) : (byte c).toNat = c.toNat := by
  rw [byte, UInt8.toNat_ofNat']
  omega

theorem byte_inj (small : c.toNat < 128) (small' : d.toNat < 128) :
    byte c = byte d ↔ c = d := by
  constructor
  · intro same
    have numbers := congrArg UInt8.toNat same
    rw [byte_toNat small, byte_toNat small'] at numbers
    exact Char.toNat_inj.mp numbers
  · rintro rfl
    rfl

/-- A property of bytes that is one of ASCII characters. -/
structure Ascii (p : UInt8 → Bool) (q : Char → Bool) : Prop where
  small : ∀ c : Char, c.toNat < 128 → p (byte c) = q c
  bytes : ∀ b : UInt8, 128 ≤ b.toNat → p b = false
  chars : ∀ c : Char, 128 ≤ c.toNat → q c = false

/-- The bytes of a slice have such a property as its characters do. -/
theorem Ascii.all_bytes {p : UInt8 → Bool} {q : Char → Bool} (ascii : Ascii p q) :
    (Slice.bytes s).all p = s.all q := by
  induction s with
  | nil => rfl
  | cons c s ih =>
    rw [bytes_cons, List.all_append, ih, List.all_cons]
    congr 1
    rcases encode_cases c with ⟨small, encoded⟩ | ⟨large, encoded⟩
    · simp [encoded, ascii.small c small]
    · rw [ascii.chars c large, List.all_eq_false]
      obtain ⟨b, present⟩ := List.exists_mem_of_ne_nil _ (@String.utf8EncodeChar_ne_nil c)
      exact ⟨b, present, by simp [ascii.bytes b (encoded b present)]⟩

theorem ascii_digit : Ascii isAsciiDigit Char.isDigit where
  small c small := by
    have same : c.toNat = c.val.toNat := rfl
    simp only [isAsciiDigit, byte_toNat small, Char.isDigit, ge_iff_le, UInt32.le_iff_toNat_le,
      same]
    rfl
  bytes b large := by
    simp only [isAsciiDigit, Bool.and_eq_false_iff, decide_eq_false_iff_not]
    omega
  chars c large := by
    have same : c.toNat = c.val.toNat := rfl
    simp only [Char.isDigit, ge_iff_le, UInt32.le_iff_toNat_le, Bool.and_eq_false_iff,
      decide_eq_false_iff_not]
    right
    have nine : '9'.val.toNat = 57 := rfl
    omega

theorem isAlphanum_eq (c : Char) : c.isAlphanum =
    ((decide (c.val ≥ 'A'.val ∧ c.val ≤ 'Z'.val) ||
      (decide (c.val ≥ 'a'.val) && decide (c.val ≤ 'z'.val))) || c.isDigit) := rfl

theorem ascii_alphanumeric : Ascii isAsciiAlphanumeric Char.isAlphanum where
  small c small := by
    have same : c.toNat = c.val.toNat := rfl
    have digit := ascii_digit.small c small
    simp only [isAsciiAlphanumeric, digit, isAlphanum_eq, isAsciiAlphabetic, byte_toNat small,
      ge_iff_le, UInt32.le_iff_toNat_le, same, Bool.decide_and]
    rfl
  bytes b large := by
    have digit := ascii_digit.bytes b large
    simp only [isAsciiAlphanumeric, isAsciiAlphabetic, digit, Bool.or_false, Bool.or_eq_false_iff,
      Bool.and_eq_false_iff, decide_eq_false_iff_not]
    omega
  chars c large := by
    have same : c.toNat = c.val.toNat := rfl
    have digit := ascii_digit.chars c large
    have upper : 'Z'.val.toNat = 90 := rfl
    have lower : 'z'.val.toNat = 122 := rfl
    simp only [isAlphanum_eq, digit, Bool.or_false, ge_iff_le, UInt32.le_iff_toNat_le,
      Bool.or_eq_false_iff, Bool.decide_and, Bool.and_eq_false_iff, decide_eq_false_iff_not]
    omega

section Ends
variable (small : d.toNat < 128)
include small

theorem head_bytes : (bytes s).head? = some (byte d) ↔ s.head? = some d := by
  cases s with
  | nil => simp
  | cons c s =>
    rcases encode_cases c with ⟨ascii, encoded⟩ | ⟨large, encoded⟩
    · simp [encoded, byte_inj ascii small]
    · obtain ⟨b, rest, shape⟩ := List.exists_cons_of_ne_nil (@String.utf8EncodeChar_ne_nil c)
      have first : 128 ≤ b.toNat := encoded b (by simp [shape])
      have byteSmall := byte_toNat small
      have other : ¬b = byte d := by
        rintro rfl
        omega
      have differ : ¬c = d := by
        rintro rfl
        omega
      simp [shape, other, differ]

theorem getLast_bytes : (bytes s).getLast? = some (byte d) ↔ s.getLast? = some d := by
  rcases List.eq_nil_or_concat s with rfl | ⟨s, c, rfl⟩
  · simp
  · rcases encode_cases c with ⟨ascii, encoded⟩ | ⟨large, encoded⟩
    · simp [encoded, byte_inj ascii small]
    · obtain ⟨rest, b, shape⟩ :=
        (List.eq_nil_or_concat _).resolve_left (@String.utf8EncodeChar_ne_nil c)
      have last : 128 ≤ b.toNat := encoded b (by simp [shape])
      have byteSmall := byte_toNat small
      have other : ¬b = byte d := by
        rintro rfl
        omega
      have differ : ¬c = d := by
        rintro rfl
        omega
      simp [shape, other, differ]

end Ends

/-- ASCII text has a byte for each character. -/
theorem len_eq_length (ascii : ∀ c ∈ s, c.toNat < 128) : len s = s.length := by
  induction s with
  | nil => rfl
  | cons c s ih =>
    have first : c.utf8Size = 1 := by
      rcases encode_cases c with ⟨-, encoded⟩ | ⟨large, -⟩
      · have length := String.length_utf8EncodeChar c
        rw [encoded] at length
        exact length.symm
      · have small := ascii c List.mem_cons_self
        omega
    rw [len_cons, first, ih fun d member => ascii d (List.mem_cons_of_mem c member),
      List.length_cons, Nat.add_comm]

end Slice
