import Mathlib.Computability.Language

/-!
# Patterns of symbols and stars

A pattern is a list of pieces: a star stands for every word, any other piece
for the words of one symbol that it accepts.  An eager match ends as soon as
the word is used up behind a symbol, so that a star at the end of the pattern
is not given the empty word there.
-/

namespace RedVector.Util

/-- A star, or one symbol. -/
inductive Piece (α : Type) where
  | star
  | one (accepts : α → Prop)

namespace Piece

variable {α : Type}

/-- The words of a piece. -/
def language : Piece α → Language α
  | star => ⊤
  | one accepts => {word | ∃ symbol, accepts symbol ∧ word = [symbol]}

/-- The words of a pattern. -/
def languageOf (pieces : List (Piece α)) : Language α :=
  (pieces.map language).prod

variable {accepts : α → Prop} {pieces : List (Piece α)} {symbol : α}
  {word : List α}

theorem mem_nil : word ∈ languageOf ([] : List (Piece α)) ↔ word = [] :=
  Iff.rfl

theorem mem_one :
    word ∈ languageOf (one accepts :: pieces) ↔
      ∃ symbol rest, word = symbol :: rest ∧ accepts symbol ∧
        rest ∈ languageOf pieces := by
  unfold languageOf
  rw [List.map_cons, List.prod_cons, Language.mem_mul]
  constructor
  · rintro ⟨_, ⟨symbol, accepted, rfl⟩, rest, member, rfl⟩
    exact ⟨symbol, rest, rfl, accepted, member⟩
  · rintro ⟨symbol, rest, rfl, accepted, member⟩
    exact ⟨[symbol], ⟨symbol, accepted, rfl⟩, rest, member, rfl⟩

theorem mem_star :
    word ∈ languageOf (star :: pieces) ↔
      ∃ skipped rest, word = skipped ++ rest ∧ rest ∈ languageOf pieces := by
  unfold languageOf
  rw [List.map_cons, List.prod_cons, Language.mem_mul]
  constructor
  · rintro ⟨skipped, -, rest, member, rfl⟩
    exact ⟨skipped, rest, rfl, member⟩
  · rintro ⟨skipped, rest, rfl, member⟩
    exact ⟨skipped, trivial, rest, member, rfl⟩

/-- The pattern without the stars at its end. -/
def trimmed : List (Piece α) → List (Piece α)
  | [] => []
  | one accepts :: pieces => one accepts :: trimmed pieces
  | star :: pieces =>
      match trimmed pieces with
      | [] => []
      | first :: rest => star :: first :: rest

/-- A match that ends when the word does, unless a star comes before its
last symbol. -/
inductive Eager : List (Piece α) → List α → Prop where
  | nil : Eager [] []
  | one {accepts : α → Prop} {pieces : List (Piece α)} {symbol : α}
      {rest : List α} : accepts symbol → (rest = [] → pieces = []) →
      Eager pieces rest → Eager (one accepts :: pieces) (symbol :: rest)
  | star {pieces : List (Piece α)} {rest : List α} (skipped : List α) :
      Eager pieces rest → Eager (star :: pieces) (skipped ++ rest)

theorem eager_one :
    Eager (.one accepts :: pieces) (symbol :: word) ↔
      accepts symbol ∧ (word = [] → pieces = []) ∧ Eager pieces word := by
  constructor
  · intro eager
    cases eager with
    | one accepted ends eager => exact ⟨accepted, ends, eager⟩
  · rintro ⟨accepted, ends, eager⟩
    exact .one accepted ends eager

theorem eager_star :
    Eager (.star :: pieces) word ↔
      ∃ skipped rest, word = skipped ++ rest ∧ Eager pieces rest := by
  constructor
  · intro eager
    cases eager with
    | star skipped eager => exact ⟨skipped, _, rfl, eager⟩
  · rintro ⟨skipped, rest, rfl, eager⟩
    exact .star skipped eager

theorem not_eager_one_nil : ¬Eager (.one accepts :: pieces) [] :=
  nofun

theorem trimmed_star : trimmed (star :: pieces) = [] ↔ trimmed pieces = [] := by
  cases shape : trimmed pieces <;> simp [trimmed, shape]

theorem trimmed_star_of_ne (kept : trimmed pieces ≠ []) :
    trimmed (star :: pieces) = star :: trimmed pieces := by
  cases shape : trimmed pieces with
  | nil => exact absurd shape kept
  | cons first rest => simp [trimmed, shape]

/-- Only stars have the empty word. -/
theorem trimmed_of_nil_mem (member : [] ∈ languageOf pieces) :
    trimmed pieces = [] := by
  induction pieces with
  | nil => rfl
  | cons piece pieces ih =>
    cases piece with
    | one accepts =>
      obtain ⟨_, _, shape, -⟩ := mem_one.1 member
      nomatch shape
    | star =>
      obtain ⟨skipped, rest, shape, member⟩ := mem_star.1 member
      rw [(List.append_eq_nil_iff.1 shape.symm).2] at member
      exact trimmed_star.2 (ih member)

/-- A star that was trimmed takes what is left of the word. -/
theorem append_mem {suffix : List α} (shorter : trimmed pieces ≠ pieces)
    (member : word ∈ languageOf (trimmed pieces)) :
    word ++ suffix ∈ languageOf pieces := by
  induction pieces generalizing word with
  | nil => exact absurd rfl shorter
  | cons piece pieces ih =>
    cases piece with
    | one accepts =>
      obtain ⟨symbol, rest, rfl, accepted, member⟩ := mem_one.1 member
      have member := ih (fun same => shorter (by rw [trimmed, same])) member
      exact mem_one.2 ⟨symbol, rest ++ suffix, rfl, accepted, member⟩
    | star =>
      by_cases whole : trimmed pieces = pieces
      · -- the star itself is the one that was trimmed
        have stars : trimmed pieces = [] := by
          by_contra kept
          exact shorter (by rw [trimmed_star_of_ne kept, whole])
        rw [stars] at whole
        subst whole
        exact mem_star.2 ⟨word ++ suffix, [], by simp, rfl⟩
      · by_cases stars : trimmed pieces = []
        · rw [trimmed_star.2 stars] at member
          rw [mem_nil.1 member]
          have ends : [] ∈ languageOf (trimmed pieces) := by
            rw [stars]
            rfl
          have member := ih whole ends
          exact mem_star.2 ⟨[], suffix, rfl, member⟩
        · rw [trimmed_star_of_ne stars] at member
          obtain ⟨skipped, rest, rfl, after⟩ := mem_star.1 member
          exact mem_star.2 ⟨skipped, rest ++ suffix, by simp, ih whole after⟩

/-- What the stars at the end of a pattern ask of a word that is matched
eagerly: a symbol of their own, where another piece comes before them. -/
def Ends (pieces : List (Piece α)) (word : List α) : Prop :=
  trimmed pieces = [] ∨ trimmed pieces = pieces ∨
    ∃ start finish, word = start ++ finish ∧ finish ≠ [] ∧
      start ∈ languageOf (trimmed pieces)

theorem ends_one (member : word ∈ languageOf pieces)
    (accepted : accepts symbol) :
    Ends (one accepts :: pieces) (symbol :: word) ↔
      (word = [] → pieces = []) ∧ Ends pieces word := by
  constructor
  · rintro (stars | whole | ⟨start, finish, split, some, member⟩)
    · nomatch stars
    · have whole : trimmed pieces = pieces := (List.cons.inj whole).2
      refine ⟨?_, .inr (.inl whole)⟩
      rintro rfl
      rw [← whole, trimmed_of_nil_mem member]
    · obtain ⟨_, start, rfl, -, member⟩ := mem_one.1 member
      rw [List.cons_append] at split
      have split := (List.cons.inj split).2
      refine ⟨fun empty => ?_, .inr (.inr ⟨start, finish, split, some, member⟩)⟩
      rw [empty] at split
      exact absurd (List.append_eq_nil_iff.1 split.symm).2 some
  · rintro ⟨ends, stars | whole | ⟨start, finish, rfl, some, member⟩⟩
    · by_cases last : pieces = []
      · subst last
        exact .inr (.inl rfl)
      · refine .inr (.inr
          ⟨[symbol], word, rfl, fun empty => last (ends empty), ?_⟩)
        refine mem_one.2 ⟨symbol, [], rfl, accepted, ?_⟩
        rw [stars]
        rfl
    · exact .inr (.inl (by rw [trimmed, whole]))
    · exact .inr (.inr ⟨symbol :: start, finish, rfl, some,
        mem_one.2 ⟨symbol, start, rfl, accepted, member⟩⟩)

theorem ends_star :
    word ∈ languageOf (star :: pieces) ∧ Ends (star :: pieces) word ↔
      ∃ skipped rest, word = skipped ++ rest ∧ rest ∈ languageOf pieces ∧
        Ends pieces rest := by
  rw [mem_star]
  by_cases stars : trimmed pieces = []
  · constructor
    · rintro ⟨⟨skipped, rest, shape, member⟩, -⟩
      exact ⟨skipped, rest, shape, member, .inl stars⟩
    · rintro ⟨skipped, rest, shape, member, -⟩
      exact ⟨⟨skipped, rest, shape, member⟩, .inl (trimmed_star.2 stars)⟩
  have step := trimmed_star_of_ne stars
  constructor
  · rintro ⟨⟨skipped, rest, shape, member⟩, gone | whole | tail⟩
    · exact absurd (trimmed_star.1 gone) stars
    · rw [step] at whole
      exact ⟨skipped, rest, shape, member, .inr (.inl (List.cons.inj whole).2)⟩
    · by_cases whole : trimmed pieces = pieces
      · exact ⟨skipped, rest, shape, member, .inr (.inl whole)⟩
      obtain ⟨start, finish, split, some, member⟩ := tail
      rw [step] at member
      obtain ⟨skipped, start, rfl, after⟩ := mem_star.1 member
      exact ⟨skipped, start ++ finish, by simp [split], append_mem whole after,
        .inr (.inr ⟨start, finish, rfl, some, after⟩)⟩
  · rintro ⟨skipped, rest, shape, member, ends⟩
    refine ⟨⟨skipped, rest, shape, member⟩, ?_⟩
    rcases ends with gone | whole | ⟨start, finish, rfl, some, member⟩
    · exact absurd gone stars
    · exact .inr (.inl (by rw [step, whole]))
    · refine .inr (.inr ⟨skipped ++ start, finish, by simp [shape], some, ?_⟩)
      rw [step]
      exact mem_star.2 ⟨skipped, start, rfl, member⟩

/-- An eager match finds the words of the pattern whose end leaves something
to its last stars. -/
theorem eager_iff :
    Eager pieces word ↔ word ∈ languageOf pieces ∧ Ends pieces word := by
  induction pieces generalizing word with
  | nil =>
    constructor
    · intro eager
      cases eager
      exact ⟨rfl, .inl rfl⟩
    · rintro ⟨rfl, -⟩
      exact .nil
  | cons piece pieces ih =>
    cases piece with
    | star => simp only [eager_star, ih, ends_star]
    | one accepts =>
      cases word with
      | nil =>
        refine iff_of_false not_eager_one_nil ?_
        rintro ⟨member, -⟩
        obtain ⟨_, _, shape, -⟩ := mem_one.1 member
        nomatch shape
      | cons symbol word =>
        rw [eager_one, ih]
        constructor
        · rintro ⟨accepted, ends, member, tail⟩
          exact ⟨mem_one.2 ⟨symbol, word, rfl, accepted, member⟩,
            (ends_one member accepted).2 ⟨ends, tail⟩⟩
        · rintro ⟨member, tail⟩
          obtain ⟨_, _, shape, accepted, member⟩ := mem_one.1 member
          obtain ⟨rfl, rfl⟩ := List.cons.inj shape
          obtain ⟨ends, tail⟩ := (ends_one member accepted).1 tail
          exact ⟨accepted, ends, member, tail⟩

end Piece

end RedVector.Util
