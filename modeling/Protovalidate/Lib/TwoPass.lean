import Mathlib.Data.List.Basic

/-!
# Lengths first, then bytes

A nested message is written after its length. One pass computes every length and
leaves those of the nested messages in a cache, in the order in which a second pass
meets them again. The cache, the saturation of lengths and what runs the passes are
taken from elsewhere, as an `Encoder`.
-/

namespace Protovalidate

/-- The bound of a length in 32 bits. -/
def U32_BOUND : Nat := 0x100000000

/-- What the two passes use, and what runs them. A cache holds the lengths of its slots, in
the order they were reserved in, and how many are consumed. -/
structure Encoder where
  SizeCache : Type
  Slot : Type
  new : SizeCache
  reserve : SizeCache → Slot × SizeCache
  set : SizeCache → Slot → Nat → SizeCache
  /-- Panics when every length is consumed. -/
  consumeNext : SizeCache → Option (Nat × SizeCache)
  saturateSize : Nat → Nat
  maxMessageBytes : Nat
  /-- Panics on a message that is too large. -/
  encodeToVec : (SizeCache → Nat × SizeCache) →
    (SizeCache → Option (List UInt8 × SizeCache)) → Option (List UInt8)
  sizes : SizeCache → List Nat
  consumed : SizeCache → Nat
  index : Slot → Nat
  sizes_new : sizes new = []
  consumed_new : consumed new = 0
  sizes_reserve : ∀ cache, ∃ n, sizes (reserve cache).2 = sizes cache ++ [n]
  index_reserve : ∀ cache, index (reserve cache).1 = (sizes cache).length
  consumed_reserve : ∀ cache, consumed (reserve cache).2 = consumed cache
  sizes_set : ∀ cache slot n, sizes (set cache slot n) = (sizes cache).set (index slot) n
  consumed_set : ∀ cache slot n, consumed (set cache slot n) = consumed cache
  consume : ∀ cache n, (sizes cache)[consumed cache]? = some n → ∃ next,
    consumeNext cache = some (n, next) ∧ sizes next = sizes cache ∧
      consumed next = consumed cache + 1
  max_lt : maxMessageBytes < U32_BOUND
  saturate_lt : ∀ n, saturateSize n < U32_BOUND
  saturate_small : ∀ n, n ≤ maxMessageBytes → saturateSize n = n
  saturate_large : ∀ n, maxMessageBytes < n → maxMessageBytes < saturateSize n
  encode_small : ∀ size write written cache, (size new).1 ≤ maxMessageBytes →
    write (size new).2 = some (written, cache) → encodeToVec size write = some written
  encode_large : ∀ size write, maxMessageBytes < (size new).1 → encodeToVec size write = none

variable {E : Encoder}

/-- Computes a length, with those of the messages inside. -/
abbrev Sizer (E : Encoder) := E.SizeCache → Nat × E.SizeCache

/-- Writes bytes, using up the lengths that are left. -/
abbrev Writer (E : Encoder) := E.SizeCache → Option (List UInt8 × E.SizeCache)

/-- The lengths that are not consumed. -/
def Encoder.left (E : Encoder) (cache : E.SizeCache) : List Nat :=
  (E.sizes cache).drop (E.consumed cache)

theorem Encoder.left_consume {cache : E.SizeCache} {n : Nat} {rest : List Nat}
    (remain : E.left cache = n :: rest) :
    ∃ next, E.consumeNext cache = some (n, next) ∧ E.left next = rest := by
  have first : (E.sizes cache)[E.consumed cache]? = some n := by
    rw [← List.head?_drop]
    exact congrArg List.head? remain
  obtain ⟨next, consumed, same, more⟩ := E.consume cache n first
  refine ⟨next, consumed, ?_⟩
  rw [Encoder.left, same, more, ← List.tail_drop]
  exact congrArg List.tail remain

namespace Sizer

def const (n : Nat) : Sizer E := fun cache => (n, cache)

def plus (first second : Sizer E) : Sizer E := fun cache =>
  let (n, cache) := first cache
  let (m, cache) := second cache
  (n + m, cache)

def sum (parts : List (Sizer E)) : Sizer E := parts.foldr plus (const 0)

/-- The length of a field that may be unset. -/
def whenSet {α : Type} (value : Option α) (size : α → Sizer E) : Sizer E :=
  match value with
  | none => const 0
  | some a => size a

/-- A message in a field, after a tag of one byte and its length. -/
def nested (varintLen : Nat → Nat) (inner : Sizer E) : Sizer E := fun cache =>
  let (slot, cache) := E.reserve cache
  let (size, cache) := inner cache
  (1 + varintLen size + size, E.set cache slot size)

def saturated (size : Sizer E) : Sizer E := fun cache =>
  let (n, cache) := size cache
  (E.saturateSize n, cache)

end Sizer

namespace Writer

def bytes (written : List UInt8) : Writer E := fun cache => some (written, cache)

def andThen (first second : Writer E) : Writer E := fun cache => do
  let (a, cache) ← first cache
  let (b, cache) ← second cache
  return (a ++ b, cache)

def each (parts : List (Writer E)) : Writer E := parts.foldr andThen (bytes [])

/-- Writes a field that may be unset. -/
def whenSet {α : Type} (value : Option α) (write : α → Writer E) : Writer E :=
  match value with
  | none => bytes []
  | some a => write a

/-- A message in a field, after what `header` writes for its length. -/
def nested (header : Nat → List UInt8) (inner : Writer E) : Writer E := fun cache => do
  let (size, cache) ← E.consumeNext cache
  let (written, cache) ← inner cache
  return (header size ++ written, cache)

end Writer

/-- Two lengths are the same, or both too large. -/
def SameSize (E : Encoder) (n m : Nat) : Prop :=
  n = m ∨ E.maxMessageBytes < n ∧ E.maxMessageBytes < m

theorem SameSize.add {n m n' m' : Nat} (first : SameSize E n m) (second : SameSize E n' m') :
    SameSize E (n + n') (m + m') := by
  unfold SameSize at *
  omega

theorem SameSize.saturate {n m : Nat} (same : SameSize E n m) :
    SameSize E (E.saturateSize n) m := by
  rcases Nat.lt_or_ge E.maxMessageBytes n with large | small
  · have kept := E.saturate_large n large
    unfold SameSize at *
    omega
  · rwa [E.saturate_small n small]

/-- The first pass finds the length of what the second one writes, which uses up the
lengths that the first one has left. -/
def TwoPass (size : Sizer E) (write : Writer E) (written : List UInt8) : Prop :=
  ∃ sizes n, (∀ cache, (size cache).1 = n ∧ E.sizes (size cache).2 = E.sizes cache ++ sizes ∧
      E.consumed (size cache).2 = E.consumed cache) ∧
    SameSize E n written.length ∧
    (written.length ≤ E.maxMessageBytes → ∀ cache rest, E.left cache = sizes ++ rest →
      ∃ next, write cache = some (written, next) ∧ E.left next = rest)

namespace TwoPass
variable {size size' : Sizer E} {write write' : Writer E} {written written' : List UInt8}

theorem bytes {n : Nat} (length : written.length = n) :
    TwoPass (E := E) (.const n) (.bytes written) written :=
  ⟨[], n, fun _ => ⟨rfl, (List.append_nil _).symm, rfl⟩, .inl length.symm,
    fun _ cache _ left => ⟨cache, rfl, left⟩⟩

theorem whenSet {α : Type} {value : Option α} {size : α → Sizer E} {write : α → Writer E}
    {put : α → List UInt8} (set : ∀ a ∈ value, TwoPass (size a) (write a) (put a)) :
    TwoPass (.whenSet value size) (.whenSet value write) ((value.map put).getD []) := by
  cases value with
  | none => exact bytes rfl
  | some a => exact set a rfl

theorem append (first : TwoPass size write written) (second : TwoPass size' write' written') :
    TwoPass (size.plus size') (write.andThen write') (written ++ written') := by
  obtain ⟨sizes, n, computed, same, wrote⟩ := first
  obtain ⟨sizes', n', computed', same', wrote'⟩ := second
  refine ⟨sizes ++ sizes', n + n', fun cache => ?_, ?_, fun small cache rest left => ?_⟩
  · obtain ⟨length, kept, consumed⟩ := computed cache
    obtain ⟨length', kept', consumed'⟩ := computed' (size cache).2
    refine ⟨congrArg₂ (· + ·) length length', ?_, consumed'.trans consumed⟩
    exact kept'.trans (by rw [kept, List.append_assoc])
  · rw [List.length_append]
    exact same.add same'
  · rw [List.length_append] at small
    rw [List.append_assoc] at left
    obtain ⟨next, ran, left⟩ := wrote (by omega) cache _ left
    obtain ⟨last, ran', left⟩ := wrote' (by omega) next _ left
    refine ⟨last, ?_, left⟩
    simp only [Writer.andThen, ran, ran', Option.bind_eq_bind, Option.bind_some, Option.pure_def]

theorem nil : TwoPass (E := E) (.sum []) (.each []) [] := bytes rfl

theorem cons {sizes : List (Sizer E)} {writes : List (Writer E)}
    (first : TwoPass size write written) (rest : TwoPass (.sum sizes) (.each writes) written') :
    TwoPass (.sum (size :: sizes)) (.each (write :: writes)) (written ++ written') :=
  first.append rest

/-- The parts of a repeated field. -/
theorem each {α : Type} {size : α → Sizer E} {write : α → Writer E} {written : α → List UInt8}
    (items : List α) (each : ∀ item ∈ items, TwoPass (size item) (write item) (written item)) :
    TwoPass (.sum (items.map size)) (.each (items.map write)) (items.flatMap written) := by
  induction items with
  | nil => exact nil
  | cons item items ih =>
    rw [List.map_cons, List.map_cons, List.flatMap_cons]
    exact (each item List.mem_cons_self).cons
      (ih fun other later => each other (List.mem_cons_of_mem item later))

theorem saturated (pass : TwoPass size write written) : TwoPass size.saturated write written := by
  obtain ⟨sizes, n, computed, same, wrote⟩ := pass
  refine ⟨sizes, E.saturateSize n, fun cache => ?_, same.saturate, wrote⟩
  obtain ⟨length, kept⟩ := computed cache
  exact ⟨congrArg E.saturateSize length, kept⟩

/-- The slot of a nested message comes before those of the messages inside. -/
theorem nested {varintLen : Nat → Nat} {header : Nat → List UInt8}
    (length : ∀ n < U32_BOUND, (header n).length = 1 + varintLen n)
    (inner : TwoPass size.saturated write written) :
    TwoPass (.nested varintLen size.saturated) (.nested header write)
      (header written.length ++ written) := by
  obtain ⟨sizes, n, computed, same, wrote⟩ := inner
  have bounded : n < U32_BOUND := (computed E.new).1 ▸ E.saturate_lt _
  refine ⟨n :: sizes, 1 + varintLen n + n, fun cache => ?_, ?_, fun small cache rest left => ?_⟩
  · obtain ⟨unset, reserved⟩ := E.sizes_reserve cache
    obtain ⟨length, kept, consumed⟩ := computed (E.reserve cache).2
    have slot : (E.sizes (size.saturated (E.reserve cache).2).2).set
        (E.index (E.reserve cache).1) n = E.sizes cache ++ n :: sizes := by
      rw [kept, reserved, E.index_reserve, List.append_assoc,
        List.set_append_right _ _ (Nat.le_refl _)]
      simp
    refine ⟨congrArg (fun n => 1 + varintLen n + n) length, ?_, ?_⟩
    · simp only [Sizer.nested, E.sizes_set, length, slot]
    · simp only [Sizer.nested, E.consumed_set, consumed, E.consumed_reserve]
  · rcases same with rfl | ⟨large, large'⟩
    · left
      rw [List.length_append, length _ bounded]
    · right
      rw [List.length_append]
      omega
  · rw [List.length_append] at small
    have exact : n = written.length := by
      unfold SameSize at same
      omega
    subst exact
    obtain ⟨next, consumed, left⟩ := E.left_consume left
    obtain ⟨last, ran, left⟩ := wrote (by omega) next _ left
    refine ⟨last, ?_, left⟩
    simp only [Writer.nested, consumed, ran, Option.bind_eq_bind, Option.bind_some,
      Option.pure_def]

/-- Both passes on a message: it is written unless it is too large. -/
theorem encoded (pass : TwoPass size write written) :
    E.encodeToVec size write =
      if written.length ≤ E.maxMessageBytes then some written else none := by
  obtain ⟨sizes, n, computed, same, wrote⟩ := pass
  obtain ⟨length, kept, consumed⟩ := computed E.new
  split
  · rename_i small
    have left : E.left (size E.new).2 = sizes ++ [] := by
      rw [Encoder.left, kept, consumed, E.sizes_new, E.consumed_new, List.append_nil]
      rfl
    obtain ⟨next, ran, -⟩ := wrote small _ _ left
    refine E.encode_small size write written next ?_ ran
    unfold SameSize at same
    omega
  · refine E.encode_large size write ?_
    unfold SameSize at same
    omega

end TwoPass

/-! ### The cache as a list -/

/-- Lengths are saturated to 32 bits, and a message takes at most 2 GiB. -/
def Encoder.listed : Encoder where
  SizeCache := List Nat × Nat
  Slot := Nat
  new := ([], 0)
  reserve cache := (cache.1.length, (cache.1 ++ [0], cache.2))
  set cache slot n := (cache.1.set slot n, cache.2)
  consumeNext cache := cache.1[cache.2]?.map fun n => (n, (cache.1, cache.2 + 1))
  saturateSize n := min n 0xffffffff
  maxMessageBytes := 0x7fffffff
  encodeToVec size write :=
    let (n, cache) := size ([], 0)
    if 0x7fffffff < n then none else (write cache).map Prod.fst
  sizes := Prod.fst
  consumed := Prod.snd
  index := id
  sizes_new := rfl
  consumed_new := rfl
  sizes_reserve _ := ⟨0, rfl⟩
  index_reserve _ := rfl
  consumed_reserve _ := rfl
  sizes_set _ _ _ := rfl
  consumed_set _ _ _ := rfl
  consume cache n found := ⟨(cache.1, cache.2 + 1), by rw [found]; rfl, rfl, rfl⟩
  max_lt := by decide
  saturate_lt n := by unfold U32_BOUND; omega
  saturate_small n small := by omega
  saturate_large n large := by omega
  encode_small size write written cache small ran := by
    have fits : ¬0x7fffffff < (size ([], 0)).1 := by omega
    simp only [if_neg fits, ran, Option.map_some]
  encode_large size write large := by
    simp only [if_pos large]

end Protovalidate
