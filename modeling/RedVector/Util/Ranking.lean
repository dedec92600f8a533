import Mathlib.Data.List.Sort

/-!
# Ranked lists

A merge sort orders a list whose members can be compared, whatever the
comparison makes of other elements.
-/

namespace RedVector.Util

section

variable {α : Type} {le : α → α → Bool} {l : List α}

/-- The comparison orders these elements. -/
structure Ranks (le : α → α → Bool) (l : List α) : Prop where
  total : ∀ a ∈ l, ∀ b ∈ l, le a b = true ∨ le b a = true
  trans : ∀ a ∈ l, ∀ b ∈ l, ∀ c ∈ l,
    le a b = true → le b c = true → le a c = true

/-- What is compared by values that the comparison orders. -/
theorem Ranks.of_values {β : Type} {values : List α} (ranks : Ranks le values)
    {m : List β} (value : β → α) (among : ∀ b ∈ m, value b ∈ values) :
    Ranks (fun a b => le (value a) (value b)) m where
  total a inA b inB := ranks.total _ (among a inA) _ (among b inB)
  trans a inA b inB c inC :=
    ranks.trans _ (among a inA) _ (among b inB) _ (among c inC)

theorem Ranks.mergeSort (ranks : Ranks le l) :
    (l.mergeSort le).Pairwise fun a b => le a b = true := by
  let inside := fun a b : { a // a ∈ l } => le a.1 b.1
  have ordered : (l.attach.mergeSort inside).Pairwise fun a b =>
      inside a b = true := by
    refine List.pairwise_mergeSort ?_ ?_ l.attach
    · intro a b c
      exact ranks.trans a.1 a.2 b.1 b.2 c.1 c.2
    · intro a b
      rw [Bool.or_eq_true]
      exact ranks.total a.1 a.2 b.1 b.2
  have same : (l.attach.mergeSort inside).map Subtype.val =
      l.mergeSort le := by
    have mapped : (l.attach.mergeSort inside).map Subtype.val =
        (l.attach.map Subtype.val).mergeSort le :=
      List.map_mergeSort fun _ _ _ _ => rfl
    rw [mapped, List.attach_map_subtype_val]
  rw [← same, List.pairwise_map]
  exact ordered

end

/-!
## The first elements of ranked lists

How many elements come no later than a bound tells where the elements of a
ranked list are.  It shows that nothing is lost if the parts of a list are
ranked and cut before they are ranked together.
-/

section

variable {α : Type} {holds : α → Bool} {l : List α}

/-- What holds of an element of the list holds of all before it. -/
def Leads (holds : α → Bool) (l : List α) : Prop :=
  l.Pairwise fun a b => holds b = true → holds a = true

theorem Leads.none {head : α} {tail : List α}
    (leads : Leads holds (head :: tail)) (fails : ¬holds head = true) :
    tail.countP holds = 0 := by
  rw [List.countP_eq_zero]
  intro element member later
  exact fails ((List.pairwise_cons.mp leads).1 element member later)

theorem Leads.countP_take (leads : Leads holds l) (k : Nat) :
    (l.take k).countP holds = min k (l.countP holds) := by
  induction l generalizing k with
  | nil => simp
  | cons head tail ih =>
      have rest := ih (List.pairwise_cons.mp leads).2
      cases k with
      | zero => simp
      | succ k =>
          rw [List.take_succ_cons]
          by_cases first : holds head = true
          · rw [List.countP_cons_of_pos first, List.countP_cons_of_pos first,
              rest]
            omega
          · rw [List.countP_cons_of_neg first, List.countP_cons_of_neg first,
              rest, leads.none first]
            omega

theorem Leads.holds_iff (leads : Leads holds l) {place : Nat} {element : α}
    (found : l[place]? = some element) :
    holds element = true ↔ place < l.countP holds := by
  have here := leads.countP_take place
  have next := leads.countP_take (place + 1)
  rw [List.take_add_one, found, Option.toList_some, List.countP_append, here,
    List.countP_singleton] at next
  constructor
  · intro true
    rw [if_pos true] at next
    omega
  · intro before
    by_contra false
    rw [if_neg false] at next
    omega

/-- Cutting the parts of a list leaves the count of the first elements as it
is. -/
theorem countP_cut {cut : List α → List α} {parts : List (List α)} {k : Nat}
    (cuts : ∀ part ∈ parts,
      (cut part).countP holds = min k (part.countP holds)) :
    min k ((parts.flatMap cut).countP holds) =
      min k (parts.flatten.countP holds) := by
  induction parts with
  | nil => rfl
  | cons part rest ih =>
      have first := cuts part List.mem_cons_self
      have others := ih fun other member =>
        cuts other (List.mem_cons_of_mem part member)
      rw [List.flatMap_cons, List.flatten_cons, List.countP_append,
        List.countP_append, first]
      omega

end

section

variable {α : Type} {le : α → α → Bool} {members l m : List α}

theorem Ranks.subset (ranks : Ranks le members) (inside : l ⊆ members) :
    Ranks le l where
  total a inA b inB := ranks.total a (inside inA) b (inside inB)
  trans a inA b inB c inC :=
    ranks.trans a (inside inA) b (inside inB) c (inside inC)

/-- The elements up to a bound come first. -/
theorem Ranks.leads (ranks : Ranks le members) (inside : l ⊆ members)
    (ordered : l.Pairwise fun a b => le a b = true) {bound : α}
    (isBound : bound ∈ members) : Leads (fun a => le a bound) l := by
  refine ordered.imp_of_mem ?_
  intro a b inA inB order upTo
  exact ranks.trans a (inside inA) b (inside inB) bound isBound order upTo

/-- Neither of the elements comes before the other one. -/
def Tied (le : α → α → Bool) (a b : α) : Prop :=
  le a b = true ∧ le b a = true

/-- Ranked lists agree up to ties if they have as many elements up to every
bound. -/
theorem Ranks.tied (ranks : Ranks le members) (inside : l ⊆ members)
    (insideM : m ⊆ members) (ordered : l.Pairwise fun a b => le a b = true)
    (orderedM : m.Pairwise fun a b => le a b = true)
    (length : l.length = m.length)
    (counts : ∀ bound ∈ members,
      l.countP (fun a => le a bound) = m.countP fun a => le a bound) :
    List.Forall₂ (Tied le) l m := by
  refine List.forall₂_iff_get.mpr ⟨length, ?_⟩
  intro place before beforeM
  rw [List.get_eq_getElem, List.get_eq_getElem]
  have isL := List.getElem_mem before
  have isM := List.getElem_mem beforeM
  have foundL := List.getElem?_eq_getElem before
  have foundM := List.getElem?_eq_getElem beforeM
  constructor
  · have own := (ranks.total _ (insideM isM) _ (insideM isM)).elim id id
    have here := ((ranks.leads insideM orderedM (insideM isM)).holds_iff
      foundM).mp own
    rw [← counts _ (insideM isM)] at here
    exact ((ranks.leads inside ordered (insideM isM)).holds_iff foundL).mpr
      here
  · have own := (ranks.total _ (inside isL) _ (inside isL)).elim id id
    have here := ((ranks.leads inside ordered (inside isL)).holds_iff
      foundL).mp own
    rw [counts _ (inside isL)] at here
    exact ((ranks.leads insideM orderedM (inside isL)).holds_iff foundM).mpr
      here

/-- The first elements of a list can be taken from the first elements of its
parts. -/
theorem Ranks.merged_take {parts : List (List α)} {whole : List α}
    (ranks : Ranks le whole) (same : parts.flatten.Perm whole) (k : Nat) :
    List.Forall₂ (Tied le)
      (((parts.flatMap fun part => (part.mergeSort le).take k).mergeSort
        le).take k)
      ((whole.mergeSort le).take k) := by
  let cut := fun part : List α => (part.mergeSort le).take k
  have partIn : ∀ part ∈ parts, part ⊆ whole := fun part member element among =>
    same.mem_iff.mp (List.mem_flatten.mpr ⟨part, member, among⟩)
  have sortIn : ∀ part ∈ parts, part.mergeSort le ⊆ whole :=
    fun part member element among =>
      partIn part member (List.mem_mergeSort.mp among)
  have mergedIn : (parts.flatMap cut).mergeSort le ⊆ whole := by
    intro element among
    obtain ⟨part, member, among⟩ :=
      List.mem_flatMap.mp (List.mem_mergeSort.mp among)
    exact sortIn part member (List.mem_of_mem_take among)
  have wholeIn : whole.mergeSort le ⊆ whole := fun element among =>
    List.mem_mergeSort.mp among
  have partOrdered : ∀ part ∈ parts,
      (part.mergeSort le).Pairwise fun a b => le a b = true :=
    fun part member => (ranks.subset (partIn part member)).mergeSort
  have merged : ((parts.flatMap cut).mergeSort le).Pairwise
      fun a b => le a b = true :=
    (ranks.subset fun element among =>
      mergedIn (List.mem_mergeSort.mpr among)).mergeSort
  -- Both counts are those of all elements, as far as they are below the cut.
  have counted : ∀ holds : α → Bool,
      (∀ part ∈ parts, Leads holds (part.mergeSort le)) →
      Leads holds ((parts.flatMap cut).mergeSort le) →
      Leads holds (whole.mergeSort le) →
      (((parts.flatMap cut).mergeSort le).take k).countP holds =
        ((whole.mergeSort le).take k).countP holds := by
    intro holds each all exact
    rw [all.countP_take, exact.countP_take,
      (List.mergeSort_perm _ le).countP_eq,
      (List.mergeSort_perm _ le).countP_eq, ← same.countP_eq]
    apply countP_cut
    intro part member
    rw [(each part member).countP_take,
      (List.mergeSort_perm _ le).countP_eq]
  refine ranks.tied (List.Subset.trans (List.take_subset _ _) mergedIn)
    (List.Subset.trans (List.take_subset _ _) wholeIn)
    (merged.sublist (List.take_sublist _ _))
    (ranks.mergeSort.sublist (List.take_sublist _ _)) ?_ ?_
  · have always : ∀ list : List α, Leads (fun _ => true) list :=
      fun list => List.pairwise_of_forall fun _ _ => id
    have length : ∀ list : List α, list.length = list.countP fun _ => true :=
      fun list => congrFun List.countP_true.symm list
    rw [length, length]
    exact counted _ (fun part _ => always _) (always _) (always _)
  · intro bound isBound
    exact counted _
      (fun part member =>
        ranks.leads (sortIn part member) (partOrdered part member) isBound)
      (ranks.leads mergedIn merged isBound)
      (ranks.leads wholeIn ranks.mergeSort isBound)

end

end RedVector.Util
