import Protovalidate.Lib.Re2
import Protovalidate.Lib.Regexes

/-!
# Patterns for two engines

Without the `cel` feature a pattern is rewritten before it is compiled: the Perl
classes become the ASCII sets that RE2 uses. The scanner counts brackets instead of
parsing classes. A bracket that RE2 takes for a character counts as well, and the
next escape outside of classes is then rewritten as if it were in one.
-/

namespace Protovalidate

open Re2

/-- What an escape is rewritten to. -/
def replacement (escaped : Char) (inClass : Bool) : String :=
  match escaped, inClass with
  | 'd', false => "[0-9]"
  | 'd', true => "0-9"
  | 'D', _ => "[^0-9]"
  | 'w', false => "[0-9A-Za-z_]"
  | 'w', true => "0-9A-Za-z_"
  | 'W', _ => "[^0-9A-Za-z_]"
  | 's', false => "[\\t\\n\\f\\r ]"
  | 's', true => "\\t\\n\\f\\r "
  | 'S', _ => "[^\\t\\n\\f\\r ]"
  | 'b', false => "(?-u:\\b)"
  | 'B', false => "(?-u:\\B)"
  | escaped, _ => String.ofList ['\\', escaped]

/-- The scanner, at a bracket depth, directly after the start of a class or not. -/
def scanClasses (depth : Nat) (classStart : Bool) : List Char → List Char
  | [] => []
  | ['\\'] => ['\\']
  | '\\' :: escaped :: chars =>
    (replacement escaped (decide (depth > 0))).toList ++ scanClasses depth false chars
  | '[' :: '^' :: chars => '[' :: '^' :: scanClasses (depth + 1) true chars
  | '[' :: chars => '[' :: scanClasses (depth + 1) true chars
  | ']' :: chars =>
    if classStart then ']' :: scanClasses depth false chars
    else ']' :: scanClasses (depth - 1) false chars
  | c :: chars => c :: scanClasses depth false chars

/-- Rewrites `\d`, `\w`, `\s`, `\b` and their negations to the ASCII sets RE2 uses. -/
def asciiClasses (pattern : String) : String :=
  String.ofList (scanClasses 0 false pattern.toList)

/-- Compiles a pattern, with the `cel` feature as it is. -/
def regexNew (cel : Bool) (inner : Regexes.Engine) (pattern : String) :
    Except String (String → Bool) :=
  inner.compile (if cel then pattern else asciiClasses pattern)

example : asciiClasses "[[:alpha:]\\d]\\d" = "[[:alpha:]0-9][0-9]" := by decide

/-! ### One character at a time -/

/-- What the scanner has just seen: a bracket, a bracket and a caret, or neither. -/
inductive Last
  | other
  | bracket
  | caret
  deriving DecidableEq, Repr

def Last.next (last : Last) (c : Char) : Last :=
  if c = '[' then .bracket
  else if c = '^' ∧ last = .bracket then .caret
  else .other

/-- The scanner, where a caret after a bracket is a step of its own. -/
def scanStep : Nat → Last → List Char → List Char
  | _, _, [] => []
  | _, _, ['\\'] => ['\\']
  | depth, _, '\\' :: escaped :: chars =>
    (replacement escaped (decide (depth > 0))).toList ++ scanStep depth .other chars
  | depth, last, ']' :: chars =>
    ']' :: scanStep (if last = .other then depth - 1 else depth) .other chars
  | depth, last, c :: chars =>
    c :: scanStep (if c = '[' then depth + 1 else depth) (last.next c) chars

section Steps
variable {depth : Nat} {last : Last} {c : Char} {chars : List Char}

theorem scanStep_char (backslash : c ≠ '\\') (closing : c ≠ ']') :
    scanStep depth last (c :: chars) =
      c :: scanStep (if c = '[' then depth + 1 else depth) (last.next c) chars := by
  rw [scanStep]
  · exact fun same => absurd same backslash
  · exact fun _ _ same => absurd same backslash
  · exact closing

/-- After a bracket only a caret is special. -/
theorem scanStep_bracket (plain : chars.head? ≠ some '^') :
    scanStep depth .bracket chars = scanStep depth .caret chars := by
  cases chars with
  | nil => rfl
  | cons c chars =>
    have caret : c ≠ '^' := fun same => plain (by rw [same]; rfl)
    by_cases backslash : c = '\\'
    · subst backslash
      cases chars <;> rfl
    · by_cases closing : c = ']'
      · subst closing
        rfl
      · rw [scanStep_char backslash closing, scanStep_char backslash closing]
        simp [Last.next, caret]

theorem scanClasses_eq (depth : Nat) (classStart : Bool) (chars : List Char) :
    scanClasses depth classStart chars =
      scanStep depth (if classStart then .caret else .other) chars := by
  fun_induction scanClasses depth classStart chars with
  | case1 => rfl
  | case2 => rfl
  | case3 depth classStart escaped chars ih =>
    rw [ih]
    rfl
  | case4 depth classStart chars ih =>
    rw [ih, scanStep_char (by decide) (by decide), scanStep_char (by decide) (by decide)]
    rfl
  | case5 depth classStart chars plain ih =>
    have first : chars.head? ≠ some '^' := by
      intro caret
      exact plain _ (head_drop caret)
    rw [ih, scanStep_char (by decide) (by decide)]
    exact congrArg _ (scanStep_bracket first).symm
  | case6 depth chars ih =>
    rw [ih]
    rfl
  | case7 depth classStart chars start ih =>
    rw [ih, Bool.not_eq_true] at *
    rw [start]
    rfl
  | case8 depth classStart c chars last pair _ bracket closing ih =>
    have backslash : c ≠ '\\' := by
      rintro rfl
      cases chars with
      | nil => exact last rfl rfl
      | cons d chars => exact pair d chars rfl rfl
    have next : (if classStart then Last.caret else Last.other).next c = .other := by
      have other : c ≠ '[' := bracket
      cases classStart <;> simp [Last.next, other]
    rw [ih, scanStep_char backslash closing, next, if_neg bracket]
    rfl

/-- The name of a class leaves the scanner as it was. -/
theorem scanStep_name {text : List Char} (letters : ∀ c ∈ text, c.isAlpha ∨ c = '^') :
    scanStep depth .other (text ++ chars) = text ++ scanStep depth .other chars := by
  induction text with
  | nil => rfl
  | cons c text ih =>
    have plain : c ≠ '\\' ∧ c ≠ ']' ∧ c ≠ '[' := by
      rcases letters c List.mem_cons_self with letter | rfl
      · refine ⟨?_, ?_, ?_⟩ <;>
          · rintro rfl
            exact absurd letter (by decide)
      · decide
    have next : Last.other.next c = .other := by simp [Last.next, plain.2.2]
    have later := ih fun d member => letters d (List.mem_cons_of_mem c member)
    rw [List.cons_append, scanStep_char plain.1 plain.2.1, next, if_neg plain.2.2, later,
      List.cons_append]

end Steps

/-! ### Classes as RE2 places them -/

/-- A part of a pattern, rewritten where RE2 places it. -/
def rewritten : Token → List Char
  | .escape inClass c => (replacement c inClass).toList
  | token => token.text

/-- The escapes that are rewritten in one way in a class and in another one outside. -/
def PLACED_ESCAPES : List Char := ['d', 'w', 's', 'b', 'B']

/-- No bracket is left over where an escape stands outside of classes. A bracket is left
over that is a character of a class, and one more if the class ends directly after such a
bracket, or after it and a caret. A closing bracket outside of classes makes up for one. -/
def settled : Nat → Last → List Token → Bool
  | _, _, [] => true
  | left, _, .char c :: rest => settled (if c = ']' then left - 1 else left) .other rest
  | left, _, .opens negated first :: rest =>
    settled left (if first then .other else if negated then .caret else .bracket) rest
  | left, last, .inside c :: rest =>
    settled (if c = '[' then left + 1 else left) (last.next c) rest
  | left, _, .name _ :: rest => settled left .other rest
  | left, last, .closes :: rest =>
    settled (if last = .other then left else left + 1) .other rest
  | left, _, .escape inClass c :: rest =>
    (inClass || left = 0 || !PLACED_ESCAPES.contains c) && settled left .other rest

section Classes
variable {c : Char} {inClass : Bool} {tokens : List Token}

theorem replacement_same (other : PLACED_ESCAPES.contains c = false) (inClass inClass' : Bool) :
    replacement c inClass = replacement c inClass' := by
  have different : ∀ d ∈ PLACED_ESCAPES, c ≠ d := by
    rintro d member rfl
    have found : PLACED_ESCAPES.contains c = true := List.contains_iff_mem.mpr member
    rw [other] at found
    cases found
  have plain : ∀ inClass, replacement c inClass =
      if c = 'D' then "[^0-9]" else if c = 'W' then "[^0-9A-Za-z_]"
      else if c = 'S' then "[^\\t\\n\\f\\r ]" else String.ofList ['\\', c] := by
    intro inClass
    unfold replacement
    split <;> simp_all [PLACED_ESCAPES]
  rw [plain, plain]

/-- The two ways to rewrite an escape differ in their first character. -/
theorem replacement_differs (placed : PLACED_ESCAPES.contains c = true) :
    (replacement c true).toList.head? ≠ (replacement c false).toList.head? ∧
      (replacement c true).toList ≠ [] ∧ (replacement c false).toList ≠ [] := by
  have listed := List.contains_iff_mem.mp placed
  simp only [PLACED_ESCAPES, List.mem_cons, List.not_mem_nil, or_false] at listed
  rcases listed with rfl | rfl | rfl | rfl | rfl <;> decide

/-- An escape is rewritten as its place asks unless a bracket is left over. -/
theorem escape_iff {depth : Nat} {out rest : List Char} {same : Bool}
    (placed : inClass = true → 0 < depth) (ih : out = rest ↔ same = true) :
    (replacement c (decide (depth > 0))).toList ++ out =
        (replacement c inClass).toList ++ rest ↔
      ((inClass || decide (depth = 0) || !PLACED_ESCAPES.contains c) && same) = true := by
  by_cases agrees : decide (depth > 0) = inClass
  · have holds : (inClass || decide (depth = 0) || !PLACED_ESCAPES.contains c) = true := by
      cases inClass with
      | true => rfl
      | false => simp [Nat.eq_zero_of_not_pos (of_decide_eq_false agrees)]
    rw [agrees, List.append_cancel_left_eq, ih, holds, Bool.true_and]
  · have outside : inClass = false := by
      cases inClass with
      | true => exact absurd (decide_eq_true (placed rfl)) agrees
      | false => rfl
    subst outside
    have deep : decide (depth > 0) = true := by simpa [Nat.pos_iff_ne_zero] using agrees
    have left : decide (depth = 0) = false := by
      have positive := of_decide_eq_true deep
      simp only [decide_eq_false_iff_not]
      omega
    rw [deep, left]
    cases special : PLACED_ESCAPES.contains c with
    | true =>
      obtain ⟨first, some, some'⟩ := replacement_differs special
      simp only [Bool.false_or, Bool.not_true, Bool.false_and, Bool.false_eq_true, iff_false]
      intro equal
      have heads := congrArg List.head? equal
      rw [List.head?_append_of_ne_nil _ some, List.head?_append_of_ne_nil _ some'] at heads
      exact first heads
    | false =>
      rw [replacement_same special true false, List.append_cancel_left_eq, ih]
      simp

/-- A named class is copied, and leaves the scanner after no bracket. -/
theorem scanStep_named {text : List Char} (letters : ∀ c ∈ text, c.isAlpha ∨ c = '^')
    (depth : Nat) (last : Last) (chars : List Char) :
    scanStep (depth + 1) last ((Token.name text).text ++ chars) =
      (Token.name text).text ++ scanStep (depth + 1) .other chars := by
  have next : ∀ last : Last, last.next ':' = .other := by
    intro last
    simp [Last.next]
  simp only [Token.text, List.cons_append, List.append_assoc]
  rw [scanStep_char (by decide) (by decide), scanStep_char (by decide) (by decide), next,
    if_neg (by decide), scanStep_name letters, List.nil_append,
    scanStep_char (by decide) (by decide), next]
  rfl

/-- The depth of the scanner at a place. -/
def depthAt (inClass : Bool) (left : Nat) : Nat := if inClass then left + 1 else left

/-- The scanner rewrites the parts of a pattern as their places ask exactly if no bracket
is left over. -/
theorem scanStep_tokens (placed : Placed inClass tokens) (left : Nat) (last : Last)
    (outside : inClass = false → last = .other) :
    scanStep (depthAt inClass left) last (tokens.flatMap Token.text) =
        tokens.flatMap rewritten ↔
      settled left last tokens = true := by
  induction placed generalizing left last with
  | done => simp [scanStep, settled]
  | @char c rest backslash bracket _ ih =>
    obtain rfl := outside rfl
    by_cases closing : c = ']'
    · subst closing
      have later := ih (left - 1) .other fun _ => rfl
      simpa [Token.text, rewritten, scanStep, settled, depthAt] using later
    · have later := ih left .other fun _ => rfl
      have next : Last.other.next c = .other := by simp [Last.next, bracket]
      simp only [List.flatMap_cons, Token.text, List.singleton_append, rewritten, settled,
        scanStep_char backslash closing, if_neg bracket, next, if_neg closing,
        List.cons.injEq, true_and]
      exact later
  | backslash => simp [Token.text, rewritten, scanStep, settled]
  | @opens negated first rest _ ih =>
    obtain rfl := outside rfl
    have later := fun last => ih left last fun same => by cases same
    cases negated <;> cases first
    · simpa [Token.text, rewritten, settled, depthAt, scanStep_char, Last.next]
        using later .bracket
    · simpa [Token.text, rewritten, settled, depthAt, scanStep_char, Last.next, scanStep]
        using later .other
    · simpa [Token.text, rewritten, settled, depthAt, scanStep_char, Last.next]
        using later .caret
    · simpa [Token.text, rewritten, settled, depthAt, scanStep_char, Last.next, scanStep]
        using later .other
  | @inside c rest backslash closing _ ih =>
    have later := ih (if c = '[' then left + 1 else left) (last.next c) fun same => by cases same
    have depth : (if c = '[' then depthAt true left + 1 else depthAt true left) =
        depthAt true (if c = '[' then left + 1 else left) := by
      by_cases bracket : c = '[' <;> simp [depthAt, bracket]
    simp only [List.flatMap_cons, Token.text, List.singleton_append, rewritten, settled,
      scanStep_char backslash closing, depth, List.cons.injEq, true_and]
    exact later
  | @name text rest letters _ ih =>
    have later := ih left .other fun same => by cases same
    rw [List.flatMap_cons, List.flatMap_cons, rewritten, settled]
    · rw [depthAt, if_pos rfl, scanStep_named letters, List.append_cancel_left_eq]
      exact later
    · exact fun _ _ same => by cases same
  | @closes rest _ ih =>
    have later := ih (if last = .other then left else left + 1) .other fun _ => rfl
    have depth : (if last = .other then depthAt true left - 1 else depthAt true left) =
        depthAt false (if last = .other then left else left + 1) := by
      by_cases other : last = .other <;> simp [depthAt, other]
    simp only [List.flatMap_cons, Token.text, List.singleton_append, rewritten, settled, scanStep,
      depth, List.cons.injEq, true_and]
    exact later
  | @escape inClass c rest _ ih =>
    have later := ih left .other fun _ => rfl
    have depth : inClass = true → 0 < depthAt inClass left := by
      rintro rfl
      exact Nat.succ_pos left
    have zero : inClass = false → (decide (depthAt inClass left = 0)) = decide (left = 0) := by
      rintro rfl
      rfl
    have both := escape_iff (c := c) depth later
    simp only [List.flatMap_cons, Token.text, List.cons_append, List.nil_append, scanStep,
      rewritten, settled]
    rw [both]
    cases inClass with
    | true => simp
    | false => rw [zero rfl]

end Classes

/-- The pattern is rewritten as RE2 places its escapes exactly if no bracket is left over
at one. -/
theorem asciiClasses_iff (pattern : String) (parts : List Token)
    (accepted : tokens pattern.toList = some parts) :
    asciiClasses pattern = String.ofList (parts.flatMap rewritten) ↔
      settled 0 .other parts = true := by
  obtain ⟨text, placed⟩ := tokens_placed accepted
  have steps := scanStep_tokens placed 0 .other fun _ => rfl
  rw [← text] at steps
  rw [asciiClasses, scanClasses_eq, ← String.toList_inj, String.toList_ofList,
    String.toList_ofList]
  exact steps

/-- After a class of one bracket, a digit that RE2 places outside of classes. The two
brackets at the end are characters for RE2. -/
theorem bracket_class_rewritten :
    tokens "[[]\\d]]".toList =
      some [.opens false false, .inside '[', .closes, .escape false 'd', .char ']', .char ']'] ∧
    asciiClasses "[[]\\d]]" = "[[]0-9]]" ∧
    String.ofList
      ([Token.opens false false, .inside '[', .closes, .escape false 'd', .char ']',
        .char ']'].flatMap rewritten) = "[[][0-9]]]" := by
  decide

/-- A class with an escape in it, and one that makes up for its bracket. -/
theorem asciiClasses_iff_settled :
    asciiClasses "[[a\\d]]\\d" = "[[a0-9]][0-9]" := by
  have parts : tokens "[[a\\d]]\\d".toList =
      some [.opens false false, .inside '[', .inside 'a', .escape true 'd', .closes, .char ']',
        .escape false 'd'] := by
    decide
  rw [(asciiClasses_iff _ _ parts).mpr (by decide)]
  decide

end Protovalidate
