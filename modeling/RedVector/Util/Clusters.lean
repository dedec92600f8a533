import Mathlib.Data.List.Basic
import Mathlib.Data.List.Flatten
import Mathlib.Order.MinMax

/-!
# Clusters

Items with a start and a stop, in the order of their starts, are cut into
clusters where the gap to what came before is large enough.
-/

namespace RedVector.Util

/-- Where the items of a type start and stop. -/
structure Extent (α : Type) where
  start : α → Nat
  stop : α → Nat
  ordered : ∀ item, start item ≤ stop item

namespace Extent

variable {α : Type} (extent : Extent α)

/-- The furthest stop. -/
def reach (items : List α) : Nat :=
  items.foldr (fun item furthest => max (extent.stop item) furthest) 0

/-- The start of the first item. -/
def onset (items : List α) : Nat :=
  (items.head?.map extent.start).getD 0

/-- A cluster begins before an item and reaches behind it. -/
def spans (item : α) (cluster : List α) : Bool :=
  extent.onset cluster ≤ extent.start item &&
    extent.stop item ≤ extent.reach cluster

def Sorted (items : List α) : Prop :=
  items.Pairwise fun a b => extent.start a ≤ extent.start b

/-- Every item but the first is near to those before it. -/
def Chained (gap : Nat) (cluster : List α) : Prop :=
  ∀ front item rest, cluster = front ++ item :: rest → front ≠ [] →
    extent.start item < extent.reach front + gap

/-- The items in clusters: between two of them there is the gap, and within
one the gap to what came before is smaller. -/
structure Clusters (gap : Nat) (items : List α)
    (clusters : List (List α)) : Prop where
  whole : clusters.flatten = items
  filled : ∀ cluster ∈ clusters, cluster ≠ []
  apart : clusters.Pairwise fun earlier later =>
    ∀ a ∈ earlier, ∀ b ∈ later, extent.stop a + gap ≤ extent.start b
  chained : ∀ cluster ∈ clusters, extent.Chained gap cluster

/-- Goes on with a cluster or begins the next one with each item. -/
def clustersFrom (gap : Nat) : List α → List α → List (List α)
  | current, [] => [current]
  | current, item :: rest =>
      if extent.start item < extent.reach current + gap then
        clustersFrom gap (current ++ [item]) rest
      else current :: clustersFrom gap [item] rest

def clusters (gap : Nat) : List α → List (List α)
  | [] => []
  | first :: rest => extent.clustersFrom gap [first] rest

/-- The items before one end where it starts. -/
def Seam (position : Nat) (items : List α) : Prop :=
  ∃ front item rest, items = front ++ item :: rest ∧ front ≠ [] ∧
    extent.start item = position ∧ extent.reach front = position

variable {extent} {items cluster front rest : List α} {item : α}
  {clusters : List (List α)} {gap : Nat}

@[simp] theorem reach_nil : extent.reach [] = 0 :=
  rfl

@[simp] theorem reach_cons :
    extent.reach (item :: rest) = max (extent.stop item)
      (extent.reach rest) :=
  rfl

@[simp] theorem onset_cons :
    extent.onset (item :: rest) = extent.start item :=
  rfl

@[simp] theorem reach_append :
    extent.reach (front ++ rest) = max (extent.reach front)
      (extent.reach rest) := by
  induction front with
  | nil => simp
  | cons first front ih => simp [ih, max_assoc]

theorem onset_append (some : front ≠ []) :
    extent.onset (front ++ rest) = extent.onset front := by
  cases front with
  | nil => exact absurd rfl some
  | cons first front => rfl

theorem stop_le_reach (extent : Extent α) (member : item ∈ items) :
    extent.stop item ≤ extent.reach items := by
  induction items with
  | nil => cases member
  | cons first rest ih =>
      rw [reach_cons]
      rcases List.mem_cons.mp member with rfl | later
      · exact le_max_left _ _
      · exact (ih later).trans (le_max_right _ _)

theorem reach_le {bound : Nat}
    (below : ∀ item ∈ items, extent.stop item ≤ bound) :
    extent.reach items ≤ bound := by
  induction items with
  | nil => exact Nat.zero_le _
  | cons first rest ih =>
      rw [reach_cons]
      exact max_le (below _ List.mem_cons_self)
        (ih fun item later => below item (List.mem_cons_of_mem _ later))

/-- Some item stops where the furthest does. -/
theorem exists_reach (extent : Extent α) (some : items ≠ []) :
    ∃ item ∈ items, extent.stop item = extent.reach items := by
  induction items with
  | nil => exact absurd rfl some
  | cons first rest ih =>
      rw [reach_cons]
      by_cases last : extent.reach rest ≤ extent.stop first
      · exact ⟨first, List.mem_cons_self, (max_eq_left last).symm⟩
      · cases rest with
        | nil => exact absurd (Nat.zero_le _) last
        | cons second rest =>
            obtain ⟨item, later, stops⟩ := ih (List.cons_ne_nil _ _)
            refine ⟨item, List.mem_cons_of_mem _ later, ?_⟩
            rw [stops, max_eq_right (Nat.le_of_not_le last)]

theorem exists_onset (extent : Extent α) (some : items ≠ []) :
    ∃ item ∈ items, extent.start item = extent.onset items := by
  cases items with
  | nil => exact absurd rfl some
  | cons first rest => exact ⟨first, List.mem_cons_self, rfl⟩

theorem Sorted.onset_le (sorted : extent.Sorted items)
    (member : item ∈ items) : extent.onset items ≤ extent.start item := by
  cases items with
  | nil => cases member
  | cons first rest =>
      rcases List.mem_cons.mp member with rfl | later
      · exact le_rfl
      · exact List.rel_of_pairwise_cons sorted later

theorem spans_iff : extent.spans item cluster = true ↔
    extent.onset cluster ≤ extent.start item ∧
      extent.stop item ≤ extent.reach cluster := by
  unfold spans
  rw [Bool.and_eq_true, decide_eq_true_eq, decide_eq_true_eq]

/-- A cluster spans its items. -/
theorem spans_of_mem (sorted : extent.Sorted cluster)
    (member : item ∈ cluster) : extent.spans item cluster = true :=
  spans_iff.mpr ⟨sorted.onset_le member, extent.stop_le_reach member⟩

namespace Clusters

theorem sorted_of_mem (clustered : extent.Clusters gap items clusters)
    (sorted : extent.Sorted items) (member : cluster ∈ clusters) :
    extent.Sorted cluster := by
  have part : cluster.Sublist items := by
    rw [← clustered.whole]
    exact List.sublist_flatten_of_mem member
  exact sorted.sublist part

/-- Between the extents of two clusters there is the gap. -/
theorem separated (clustered : extent.Clusters gap items clusters) :
    clusters.Pairwise fun earlier later =>
      extent.reach earlier + gap ≤ extent.onset later := by
  have filled := clustered.filled
  refine clustered.apart.imp_of_mem ?_
  intro earlier later first second apart
  obtain ⟨a, last, stops⟩ := extent.exists_reach (filled earlier first)
  obtain ⟨b, head, starts⟩ := extent.exists_onset (filled later second)
  rw [← stops, ← starts]
  exact apart a last b head

theorem onset_le_reach (clustered : extent.Clusters gap items clusters)
    (member : cluster ∈ clusters) :
    extent.onset cluster ≤ extent.reach cluster := by
  obtain ⟨first, head, starts⟩ :=
    extent.exists_onset (clustered.filled cluster member)
  rw [← starts]
  exact (extent.ordered first).trans (extent.stop_le_reach head)

/-- Two clusters that span one item are torn apart where it is, and it takes
up nothing. -/
theorem seam_of_spans {before between after : List (List α)}
    {earlier later : List α}
    (clustered : extent.Clusters gap items clusters)
    (two : clusters = before ++ earlier :: (between ++ later :: after))
    (first : extent.spans item earlier = true)
    (second : extent.spans item later = true) :
    gap = 0 ∧ extent.start item = extent.stop item ∧
      extent.Seam (extent.start item) items := by
  have begins := (spans_iff.mp second).1
  have ends := (spans_iff.mp first).2
  have inOrder := extent.ordered item
  have order := clustered.separated
  rw [two, List.pairwise_append, List.pairwise_cons,
    List.pairwise_append, List.pairwise_cons] at order
  have touching := order.2.1.1 later (by simp)
  refine ⟨by omega, by omega, ?_⟩
  cases later with
  | nil =>
      refine absurd rfl (clustered.filled [] ?_)
      rw [two]
      simp
  | cons head tail =>
      refine ⟨(before ++ earlier :: between).flatten, head,
        tail ++ after.flatten, ?_, ?_, ?_, ?_⟩
      · rw [← clustered.whole, two]
        simp
      · intro none
        have empty : earlier = [] := by
          have parts := List.flatten_eq_nil_iff.mp none
          exact parts earlier (by simp)
        refine absurd empty (clustered.filled earlier ?_)
        rw [two]
        simp
      · rw [onset_cons] at touching begins
        omega
      · have low : extent.reach earlier ≤
            extent.reach (before ++ earlier :: between).flatten := by
          apply reach_le
          intro a member
          apply extent.stop_le_reach
          simp [member]
        have high : extent.reach (before ++ earlier :: between).flatten ≤
            extent.start head := by
          apply reach_le
          intro a member
          obtain ⟨part, among, inside⟩ := List.mem_flatten.mp member
          have apart := clustered.apart
          rw [two, show before ++ earlier :: (between ++ (head :: tail) ::
            after) = (before ++ earlier :: between) ++
              (head :: tail) :: after by simp, List.pairwise_append] at apart
          have gapped := apart.2.2 part among (head :: tail)
            List.mem_cons_self a inside head List.mem_cons_self
          omega
        rw [onset_cons] at touching begins
        omega

/-- Where the items before one end at its start, it begins a cluster. -/
theorem begins_of_seam {front rest : List α} {next : α}
    (clustered : extent.Clusters 0 items clusters)
    (two : items = front ++ next :: rest)
    (ends : extent.reach front ≤ extent.start next) :
    ∃ before tail after, clusters = before ++ (next :: tail) :: after ∧
      before.flatten = front := by
  have whole := clustered.whole
  rw [two] at whole
  rcases List.flatten_eq_append_iff.mp whole with
    ⟨before, after, isClusters, isFront, isRest⟩ |
    ⟨before, left, middle, right, after, isClusters, isFront, isRest⟩
  · obtain ⟨empty, tail, after', isAfter, allEmpty, isTail⟩ :=
      List.flatten_eq_cons_iff.mp isRest.symm
    have none : empty = [] := by
      cases empty with
      | nil => rfl
      | cons cluster others =>
          refine absurd (allEmpty cluster List.mem_cons_self)
            (clustered.filled cluster ?_)
          rw [isClusters, isAfter]
          simp
    subst none
    refine ⟨before, tail, after', ?_, isFront.symm⟩
    rw [isClusters, isAfter]
    rfl
  · have head : next = middle := List.head_eq_of_cons_eq isRest
    have tail : rest = right ++ after.flatten := List.tail_eq_of_cons_eq isRest
    subst head
    have among : left ++ next :: right ∈ clusters := by
      rw [isClusters]
      simp
    cases left with
    | nil =>
        refine ⟨before, right, after, isClusters, ?_⟩
        rw [isFront, List.append_nil]
    | cons first left =>
        have near := clustered.chained _ among (first :: left) next right rfl
          (List.cons_ne_nil _ _)
        rw [isFront, reach_append] at ends
        omega

/-- An item is spanned by its own cluster only, unless it takes up nothing and
the items are torn apart where it is. -/
theorem countP_spans (clustered : extent.Clusters gap items clusters)
    (sorted : extent.Sorted items) (member : item ∈ items) :
    clusters.countP (extent.spans item) = 1 ↔
      ¬(gap = 0 ∧ extent.start item = extent.stop item ∧
        extent.Seam (extent.start item) items) := by
  constructor
  · rintro once ⟨rfl, point, front, next, rest, two, some, starts, ends⟩
    obtain ⟨before, tail, after, isClusters, isFront⟩ :=
      clustered.begins_of_seam two (by omega)
    obtain ⟨last, among, stops⟩ := extent.exists_reach some
    rw [← isFront] at among
    obtain ⟨earlier, isEarlier, inside⟩ := List.mem_flatten.mp among
    have earlierMember : earlier ∈ clusters := by
      rw [isClusters]
      exact List.mem_append_left _ isEarlier
    have first : extent.spans item earlier = true := by
      have begins := (clustered.sorted_of_mem sorted earlierMember).onset_le
        inside
      have reaches := extent.stop_le_reach inside
      have inOrder := extent.ordered last
      exact spans_iff.mpr ⟨by omega, by omega⟩
    have second : extent.spans item (next :: tail) = true := by
      have reaches := extent.stop_le_reach
        (List.mem_cons_self : next ∈ next :: tail)
      have inOrder := extent.ordered next
      refine spans_iff.mpr ⟨?_, by omega⟩
      rw [onset_cons]
      omega
    have positive : 0 < before.countP (extent.spans item) :=
      List.countP_pos_iff.mpr ⟨earlier, isEarlier, first⟩
    rw [isClusters, List.countP_append, List.countP_cons_of_pos second] at once
    omega
  · intro whole
    rw [← clustered.whole] at member
    obtain ⟨own, isOwn, inside⟩ := List.mem_flatten.mp member
    have spanned := spans_of_mem (clustered.sorted_of_mem sorted isOwn) inside
    obtain ⟨before, after, isClusters⟩ := List.append_of_mem isOwn
    have noneBefore : before.countP (extent.spans item) = 0 := by
      rw [List.countP_eq_zero]
      intro earlier isEarlier first
      obtain ⟨front, between, rfl⟩ := List.append_of_mem isEarlier
      rw [List.append_assoc, List.cons_append] at isClusters
      exact whole (clustered.seam_of_spans isClusters first spanned)
    have noneAfter : after.countP (extent.spans item) = 0 := by
      rw [List.countP_eq_zero]
      intro later isLater second
      obtain ⟨between, rest, rfl⟩ := List.append_of_mem isLater
      exact whole (clustered.seam_of_spans isClusters spanned second)
    rw [isClusters, List.countP_append, List.countP_cons_of_pos spanned,
      noneBefore, noneAfter]

end Clusters

/-! ## One pass -/

theorem chained_singleton (item : α) : extent.Chained gap [item] := by
  intro front other rest two some
  cases front with
  | nil => exact absurd rfl some
  | cons first front => simp at two

theorem Chained.append (chained : extent.Chained gap cluster)
    (near : extent.start item < extent.reach cluster + gap) :
    extent.Chained gap (cluster ++ [item]) := by
  intro front other rest two some
  rcases List.eq_nil_or_concat rest with rfl | ⟨inner, last, rfl⟩
  · obtain ⟨rfl, same⟩ := List.append_inj' two rfl
    cases same
    exact near
  · have longer : cluster ++ [item] =
        (front ++ other :: inner) ++ [last] := by
      rw [two, List.append_assoc, List.cons_append, List.concat_eq_append]
    obtain ⟨rfl, -⟩ := List.append_inj' longer rfl
    exact chained front other inner rfl some

theorem clustersFrom_spec {current : List α} (some : current ≠ [])
    (chained : extent.Chained gap current)
    (sorted : extent.Sorted (current ++ rest)) :
    extent.Clusters gap (current ++ rest)
      (extent.clustersFrom gap current rest) := by
  induction rest generalizing current with
  | nil =>
      refine ⟨by simp [clustersFrom], ?_, ?_, ?_⟩
      · intro cluster member
        rw [List.mem_singleton.mp member]
        exact some
      · exact List.pairwise_singleton _ _
      · intro cluster member
        rw [List.mem_singleton.mp member]
        exact chained
  | cons item rest ih =>
      rw [clustersFrom]
      split
      · rename_i near
        have moved : current ++ item :: rest = (current ++ [item]) ++ rest := by
          simp
        rw [moved] at sorted ⊢
        exact ih (by simp) (chained.append near) sorted
      · rename_i far
        have later : extent.Sorted (item :: rest) :=
          (List.pairwise_append.mp sorted).2.1
        have clustered := ih (List.cons_ne_nil item [])
          (chained_singleton item) later
        refine ⟨?_, ?_, ?_, ?_⟩
        · rw [List.flatten_cons, clustered.whole]
          rfl
        · intro cluster member
          rcases List.mem_cons.mp member with rfl | among
          · exact some
          · exact clustered.filled cluster among
        · refine List.pairwise_cons.mpr ⟨?_, clustered.apart⟩
          intro cluster among a inCurrent b inside
          have behind : b ∈ item :: rest := by
            have member := List.mem_flatten_of_mem among inside
            rwa [clustered.whole] at member
          have low := later.onset_le behind
          have high := extent.stop_le_reach inCurrent
          rw [onset_cons] at low
          omega
        · intro cluster member
          rcases List.mem_cons.mp member with rfl | among
          · exact chained
          · exact clustered.chained cluster among

/-- Sorted items are cut into clusters. -/
theorem clusters_spec (sorted : extent.Sorted items) :
    extent.Clusters gap items (extent.clusters gap items) := by
  cases items with
  | nil =>
      exact ⟨rfl, by simp [clusters], List.Pairwise.nil, by simp [clusters]⟩
  | cons first rest =>
      exact clustersFrom_spec (List.cons_ne_nil first [])
        (chained_singleton first) sorted

end Extent

end RedVector.Util
