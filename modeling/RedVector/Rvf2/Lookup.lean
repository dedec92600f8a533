import RedVector.Rvf2.DocIndex
import RedVector.Rvf2.RoundTrip
import RedVector.Util.Bisection
import RedVector.Util.Rows

/-!
# Looking up documents

An index file shows the entries that were added, in the order of the document
ids.  The two ways to look a document up agree exactly if the bisection does
not stop at a tombstone of a document that has a live entry.
-/

namespace RedVector.Rvf2

open Codec DocIndexBuilder Util

/-! ## The file -/

theorem reads_docIndexHeader
    {header : DocIndexHeader} (isMagic : header.magic.length = 4)
    (isReserved : header.reserved.length = 12) :
    Reads DocIndexHeader.decode header.toBytes header := by
  unfold DocIndexHeader.decode DocIndexHeader.toBytes
  apply (reads_taken isMagic).bind
  apply (reads_u32 header.version).bind
  apply (reads_u64 header.entryCount).bind
  apply (reads_u32 header.flags).bind
  apply (reads_taken isReserved).ends
  simp only [UInt32.ofNat_toNat, UInt64.ofNat_toNat]
  exact reads_pure header

theorem docIndexHeader_length
    {header : DocIndexHeader} (isMagic : header.magic.length = 4)
    (isReserved : header.reserved.length = 12) :
    header.toBytes.length = DocIndexHeader.size := by
  simp [DocIndexHeader.toBytes, DocIndexHeader.size, isMagic, isReserved]

theorem reads_docEntry (entry : DocEntry) :
    Reads DocEntry.decode entry.toBytes entry := by
  unfold DocEntry.decode DocEntry.toBytes
  apply (reads_u64 entry.docId).bind
  apply (reads_u32 entry.segmentId).bind
  apply (reads_u32 entry.offset).bind
  apply (reads_u32 entry.len).bind
  apply (reads_u16 entry.flags).bind
  apply (reads_u16 entry.reserved).ends
  simp only [UInt64.ofNat_toNat, UInt32.ofNat_toNat, UInt16.ofNat_toNat]
  exact reads_pure entry

theorem docEntry_length (entry : DocEntry) :
    entry.toBytes.length = DocEntry.size := by
  simp [DocEntry.toBytes, DocEntry.size]

theorem entries_length (entries : List DocEntry) :
    (entries.flatMap DocEntry.toBytes).length =
      entries.length * DocEntry.size :=
  length_rows fun entry _ => docEntry_length entry

theorem drop_entries (entries : List DocEntry) (place : Nat) :
    (entries.flatMap DocEntry.toBytes).drop (place * DocEntry.size) =
      (entries.drop place).flatMap DocEntry.toBytes :=
  drop_rows (fun entry _ => docEntry_length entry) place

namespace DocIndex

/-- The index shows these entries, one after the other. -/
structure Shows [Platform] (index : DocIndex) (entries : List DocEntry) :
    Prop where
  count : index.len = entries.length
  each : ∀ place, index.getByIndex place = some entries[place]?

variable [Platform] {index : DocIndex} {entries : List DocEntry}

theorem shows_of_file {front : Bytes} (start : front.length = 32)
    (bounded : entries.length * DocEntry.size ≤ 9223372036854775807)
    (contents : index.mmap = front ++ entries.flatMap DocEntry.toBytes)
    (count : index.len = entries.length) : Shows index entries where
  count := count
  each := by
    intro place
    unfold getByIndex
    rw [count]
    split
    · rename_i outside
      rw [List.getElem?_eq_none outside]
    · rename_i inside
      have less := Nat.lt_of_not_le inside
      have upTo : place * DocEntry.size + DocEntry.size ≤
          entries.length * DocEntry.size := by
        rw [← Nat.succ_mul]
        exact Nat.mul_le_mul_right _ less
      have length := entries_length entries
      unfold DocEntry.size at upTo bounded length
      rw [usize_of rfl (by unfold DocEntry.size usizeMax; omega),
        Option.bind_eq_bind, Option.bind_some,
        usize_of rfl (by
          unfold DocIndexHeader.size DocEntry.size usizeMax
          omega),
        Option.bind_some,
        usize_of rfl (by
          unfold DocIndexHeader.size DocEntry.size usizeMax
          omega),
        Option.bind_some, if_neg (by
          rw [contents, List.length_append, start, length]
          unfold DocIndexHeader.size DocEntry.size
          omega)]
      have rest : index.mmap.drop
          (DocIndexHeader.size + place * DocEntry.size) =
            (entries.drop place).flatMap DocEntry.toBytes := by
        rw [contents, ← List.drop_drop]
        unfold DocIndexHeader.size
        rw [← start, List.drop_left, drop_entries]
      rw [rest, List.drop_eq_getElem_cons less, List.flatMap_cons,
        reads_docEntry, List.getElem?_eq_getElem less]
      rfl

end DocIndex

/-! ## What a lookup should answer -/

/-- A live entry of the document if there is one. -/
def Answers (entries : List DocEntry) (docId : UInt64) :
    Except Rvf2Error DocEntry → Prop
  | .ok entry =>
      entry ∈ entries ∧ entry.docId = docId ∧ entry.isTombstone = false
  | .error error => error = .docNotFound docId ∧
      ∀ entry ∈ entries, entry.docId = docId → entry.isTombstone = true

structure LookupsAgree [Platform] (index : DocIndex) (entries : List DocEntry)
    (docId : UInt64) (found scanned : Except Rvf2Error DocEntry) : Prop where
  searched : index.get docId = some found
  scans : index.linearScan docId = some scanned
  both : found.isOk = scanned.isOk
  answers : Answers entries docId found
  possible : Answers entries docId scanned

/-- Among the entries of the document, the one that halving the sorted entries
reaches first is live. -/
def LiveFirst (entries : List DocEntry) (docId : UInt64) : Prop :=
  ∃ place entry,
    (DocIndexBuilder.sortedByDocId entries)[place]? = some entry ∧
    entry.docId = docId ∧ entry.isTombstone = false ∧
    ∀ other rival,
      (DocIndexBuilder.sortedByDocId entries)[other]? = some rival →
      rival.docId = docId →
        level 0 entries.length place ≤ level 0 entries.length other

section

variable {entries sorted : List DocEntry} {docId : UInt64}

theorem Answers.congr {answer : Except Rvf2Error DocEntry}
    (same : ∀ entry, entry ∈ entries ↔ entry ∈ sorted)
    (answers : Answers entries docId answer) : Answers sorted docId answer := by
  cases answer with
  | ok entry =>
      obtain ⟨member, matching, live⟩ := answers
      exact ⟨(same entry).mp member, matching, live⟩
  | error error =>
      obtain ⟨missing, dead⟩ := answers
      exact ⟨missing, fun entry member => dead entry ((same entry).mpr member)⟩

theorem Answers.isOk_iff {answer : Except Rvf2Error DocEntry}
    (answers : Answers entries docId answer) :
    answer.isOk = true ↔ ∃ entry ∈ entries,
      entry.docId = docId ∧ entry.isTombstone = false := by
  cases answer with
  | ok entry => exact ⟨fun _ => ⟨entry, answers⟩, fun _ => rfl⟩
  | error error =>
      refine ⟨fun ok => absurd ok Bool.false_ne_true, ?_⟩
      rintro ⟨entry, member, matching, live⟩
      rw [answers.2 entry member matching] at live
      cases live

/-! ## The sorted entries -/

theorem mem_sortedByDocId (entry : DocEntry) :
    entry ∈ sortedByDocId entries ↔ entry ∈ entries :=
  List.mem_mergeSort

theorem length_sortedByDocId :
    (sortedByDocId entries).length = entries.length :=
  List.length_mergeSort _

theorem sortedByDocId_le {low high : Nat} (among : low ≤ high)
    (inside : high < (sortedByDocId entries).length) :
    ((sortedByDocId entries).get
      ⟨low, Nat.lt_of_le_of_lt among inside⟩).docId ≤
        (sortedByDocId entries)[high].docId := by
  have sorted : (sortedByDocId entries).Pairwise fun a b =>
      decide (a.docId ≤ b.docId) = true := by
    refine List.pairwise_mergeSort ?_ ?_ entries
    · intro a b c first second
      rw [decide_eq_true_eq] at first second ⊢
      exact UInt64.le_trans first second
    · intro a b
      rw [Bool.or_eq_true, decide_eq_true_eq, decide_eq_true_eq]
      exact UInt64.le_total a.docId b.docId
  rcases Nat.eq_or_lt_of_le among with rfl | before
  · exact UInt64.le_refl _
  · exact of_decide_eq_true
      (List.pairwise_iff_getElem.mp sorted low high _ inside before)

/-- How the entry at a place compares with a document. -/
def against (sorted : List DocEntry) (docId : UInt64) (place : Nat) :
    Ordering :=
  match sorted[place]? with
  | none => .gt
  | some entry =>
      if entry.docId = docId then .eq
      else if entry.docId < docId then .lt
      else .gt

theorem against_eq {place : Nat} (inside : place < sorted.length) :
    against sorted docId place = .eq ↔ sorted[place].docId = docId := by
  unfold against
  rw [List.getElem?_eq_getElem inside]
  grind

theorem against_lt {place : Nat} (inside : place < sorted.length) :
    against sorted docId place = .lt ↔ sorted[place].docId < docId := by
  unfold against
  rw [List.getElem?_eq_getElem inside]
  grind

theorem against_gt {place : Nat} (inside : place < sorted.length) :
    against sorted docId place = .gt ↔ docId < sorted[place].docId := by
  unfold against
  rw [List.getElem?_eq_getElem inside]
  grind

theorem ascends_against (entries : List DocEntry) (docId : UInt64) :
    Ascends (against (sortedByDocId entries) docId)
      (sortedByDocId entries).length where
  less low high among inside smaller := by
    have order := sortedByDocId_le among inside
    rw [against_lt inside] at smaller
    rw [against_lt (Nat.lt_of_le_of_lt among inside)]
    exact UInt64.lt_of_le_of_lt order smaller
  greater low high among inside larger := by
    have order := sortedByDocId_le among inside
    rw [against_gt (Nat.lt_of_le_of_lt among inside)] at larger
    rw [against_gt inside]
    exact UInt64.lt_of_lt_of_le larger order

theorem addAll_entries {builder after : DocIndexBuilder}
    (added : builder.addAll entries = some after) :
    after.entries = builder.entries ++ entries := by
  induction entries generalizing builder with
  | nil =>
      cases added
      rw [List.append_nil]
  | cons entry rest ih =>
      rw [addAll] at added
      obtain ⟨next, adds, more⟩ := Option.bind_eq_some_iff.mp added
      unfold add at adds
      split at adds
      · cases adds
        rw [ih more, List.append_assoc]
        rfl
      · cases adds

/-- What the bisection of the sorted entries finds of a document. -/
theorem bisect_sorted_some {place : Nat}
    (found : bisect (against (sortedByDocId entries) docId) 0 entries.length =
      some place) :
    ∃ entry, (sortedByDocId entries)[place]? = some entry ∧ entry ∈ entries ∧
      entry.docId = docId ∧ ∀ other rival,
        (sortedByDocId entries)[other]? = some rival → rival.docId = docId →
          other ≠ place →
            level 0 entries.length place < level 0 entries.length other := by
  have ascends := ascends_against entries docId
  rw [length_sortedByDocId] at ascends
  obtain ⟨-, inside, equal, first⟩ := bisect_first ascends found
  have among : place < (sortedByDocId entries).length := by
    rwa [length_sortedByDocId]
  refine ⟨_, List.getElem?_eq_getElem among,
    (mem_sortedByDocId _).mp (List.getElem_mem among),
    (against_eq among).mp equal, ?_⟩
  intro other rival stands matching different
  obtain ⟨within, rfl⟩ := List.getElem?_eq_some_iff.mp stands
  refine first other (Nat.zero_le _) ?_ ((against_eq within).mpr matching)
    different
  rwa [length_sortedByDocId] at within

theorem bisect_sorted_none
    (missing : bisect (against (sortedByDocId entries) docId) 0
      entries.length = none) :
    ∀ entry ∈ entries, entry.docId ≠ docId := by
  intro entry member matching
  have ascends := ascends_against entries docId
  obtain ⟨place, inside, rfl⟩ :=
    List.mem_iff_getElem.mp ((mem_sortedByDocId entry).mpr member)
  have less := inside
  rw [length_sortedByDocId] at ascends less
  exact bisect_none ascends missing (Nat.zero_le place) less
    ((against_eq inside).mpr matching)

/-! ## Where the search stops -/

/-- What the search answers at the place where it stops. -/
def answerAt (sorted : List DocEntry) (docId : UInt64) (stop : Option Nat) :
    Except Rvf2Error DocEntry :=
  match stop.bind fun place => sorted[place]? with
  | none => .error (.docNotFound docId)
  | some entry =>
      if entry.isTombstone then .error (.docNotFound docId) else .ok entry

/-- The search answers with the live entry where it stops. -/
theorem answerAt_live {place : Nat} {entry : DocEntry}
    (found : sorted[place]? = some entry) (live : entry.isTombstone = false) :
    answerAt sorted docId (some place) = .ok entry := by
  unfold answerAt
  rw [Option.bind_some, found]
  dsimp only
  rw [if_neg (by rw [live]; exact Bool.false_ne_true)]

theorem answerAt_dead {place : Nat} {entry : DocEntry}
    (found : sorted[place]? = some entry) (dead : entry.isTombstone = true) :
    answerAt sorted docId (some place) = .error (.docNotFound docId) := by
  unfold answerAt
  rw [Option.bind_some, found]
  dsimp only
  rw [if_pos dead]

/-! ## The linear scan -/

variable [Platform] {index : DocIndex}

theorem scan_answers (docId : UInt64) (shows : index.Shows entries)
    (rounds place : Nat) (all : place + rounds = entries.length) :
    ∃ answer, index.scan docId rounds place = some answer ∧
      Answers (entries.drop place) docId answer := by
  induction rounds generalizing place with
  | zero =>
      refine ⟨_, rfl, rfl, ?_⟩
      intro entry member
      rw [List.drop_eq_nil_of_le (by omega)] at member
      cases member
  | succ rounds ih =>
      have inside : place < entries.length := by omega
      obtain ⟨answer, scans, answers⟩ := ih (place + 1) (by omega)
      have reads : index.getByIndex place = some (some entries[place]) := by
        rw [shows.each, List.getElem?_eq_getElem inside]
      rw [DocIndex.scan, reads, List.drop_eq_getElem_cons inside]
      show ∃ answer, (if entries[place].docId = docId &&
          !entries[place].isTombstone then some (.ok entries[place])
        else index.scan docId rounds (place + 1)) = some answer ∧ _
      split
      · rename_i matching
        simp only [Bool.and_eq_true, decide_eq_true_eq,
          Bool.not_eq_true'] at matching
        exact ⟨_, rfl, List.mem_cons_self, matching.1, matching.2⟩
      · rename_i other
        refine ⟨answer, scans, ?_⟩
        cases answer with
        | ok entry =>
            exact ⟨List.mem_cons_of_mem _ answers.1, answers.2⟩
        | error error =>
            refine ⟨answers.1, ?_⟩
            intro entry member matching
            rcases List.mem_cons.mp member with rfl | later
            · by_contra live
              exact other (by simp [matching, live])
            · exact answers.2 entry later matching

/-! ## The binary search -/

theorem search_eq (shows : index.Shows sorted) {rounds left right : Nat}
    (enough : right - left ≤ rounds) (inside : right ≤ sorted.length) :
    index.search docId rounds left right =
      some (answerAt sorted docId
        (bisect (against sorted docId) left right)) := by
  induction rounds generalizing left right with
  | zero =>
      rw [bisect, dif_neg (by omega)]
      rfl
  | succ rounds ih =>
      rw [DocIndex.search, bisect]
      by_cases proper : left < right
      · obtain ⟨low, high⟩ := middle_within proper
        have among : middle left right < sorted.length := by omega
        have found := List.getElem?_eq_getElem among
        have reads : index.getByIndex (left + (right - left) / 2) =
            some (some sorted[middle left right]) := by
          rw [shows.each, ← found]
          rfl
        have order : against sorted docId (middle left right) =
            if sorted[middle left right].docId = docId then .eq
            else if sorted[middle left right].docId < docId then .lt
            else .gt := by
          unfold against
          rw [found]
        rw [if_pos proper, dif_pos proper]
        dsimp only
        rw [reads, order, Option.bind_eq_bind, Option.bind_some]
        dsimp only
        split
        · unfold answerAt
          rw [Option.bind_some, found]
          dsimp only
          split
          · rfl
          · rfl
        · split
          · exact ih (by omega) inside
          · exact ih (by omega) (by omega)
      · rw [if_neg proper, dif_neg proper]
        rfl

theorem ofFile_built (builder : DocIndexBuilder) :
    ∃ index, DocIndex.ofFile builder.build = .ok index ∧
      index.Shows (sortedByDocId builder.entries) ∧
      index.header.flags = DocIndexHeader.sorted := by
  have fits := builder.fits
  have bounded : (sortedByDocId builder.entries).length * DocEntry.size ≤
      9223372036854775807 := by
    rw [length_sortedByDocId]
    exact fits
  let header : DocIndexHeader :=
    { magic := docIndexMagic
      version := version
      entryCount := .ofNat (sortedByDocId builder.entries).length
      flags := DocIndexHeader.sorted
      reserved := List.replicate 12 0 }
  have file : builder.build = header.toBytes ++
      (sortedByDocId builder.entries).flatMap DocEntry.toBytes := rfl
  have length : header.toBytes.length = 32 := docIndexHeader_length rfl rfl
  have reads : Reads DocIndexHeader.decode header.toBytes header :=
    reads_docIndexHeader rfl rfl
  refine ⟨⟨builder.build, header⟩, ?_, ?_, rfl⟩
  · unfold DocIndex.ofFile
    rw [if_neg (by
      rw [file, List.length_append, length]
      unfold DocIndexHeader.size
      omega), file, reads]
    dsimp only
    rw [if_neg (fun other => other rfl), if_neg (fun other => other rfl)]
  · refine DocIndex.shows_of_file length bounded file ?_
    show (UInt64.ofNat (sortedByDocId builder.entries).length).toNat = _
    refine UInt64.toNat_ofNat_of_lt' ?_
    unfold DocEntry.size at bounded
    rw [UInt64.size]
    omega

/-! ## The two lookups -/

theorem get_sorted (docId : UInt64)
    (shows : index.Shows (sortedByDocId entries))
    (flags : index.header.flags = DocIndexHeader.sorted) :
    index.get docId = some (answerAt (sortedByDocId entries) docId
      (bisect (against (sortedByDocId entries) docId) 0 entries.length)) := by
  unfold DocIndex.get
  rw [flags, if_neg (by decide), search_eq shows (by omega)
    (Nat.le_of_eq shows.count), shows.count, length_sortedByDocId]

theorem linearScan_sorted (docId : UInt64)
    (shows : index.Shows (sortedByDocId entries)) :
    ∃ scanned, index.linearScan docId = some scanned ∧
      Answers entries docId scanned := by
  obtain ⟨scanned, scans, answers⟩ :=
    scan_answers docId shows index.len 0
      ((Nat.zero_add _).trans shows.count)
  exact ⟨scanned, scans, answers.congr mem_sortedByDocId⟩

theorem agree_iff (shows : index.Shows (sortedByDocId entries))
    (flags : index.header.flags = DocIndexHeader.sorted) :
    (∃ found scanned, LookupsAgree index entries docId found scanned) ↔
      (∀ entry ∈ entries, entry.docId = docId →
        entry.isTombstone = true) ∨ LiveFirst entries docId := by
  have searched := get_sorted docId shows flags
  obtain ⟨scanned, scans, possible⟩ := linearScan_sorted docId shows
  cases stops : bisect (against (sortedByDocId entries) docId) 0
    entries.length with
  | none =>
      have none := bisect_sorted_none stops
      rw [stops] at searched
      have answers : Answers entries docId (.error (.docNotFound docId)) :=
        ⟨rfl, fun entry member matching =>
          absurd matching (none entry member)⟩
      refine ⟨fun _ => .inl answers.2, fun _ =>
        ⟨_, scanned, searched, scans, ?_, answers, possible⟩⟩
      exact Bool.eq_iff_iff.mpr (answers.isOk_iff.trans possible.isOk_iff.symm)
  | some place =>
      obtain ⟨entry, stands, member, matching, first⟩ :=
        bisect_sorted_some stops
      rw [stops] at searched
      cases state : entry.isTombstone with
      | false =>
          rw [answerAt_live stands state] at searched
          have answers : Answers entries docId (.ok entry) :=
            ⟨member, matching, state⟩
          refine ⟨fun _ => .inr ⟨place, entry, stands, matching, state, ?_⟩,
            fun _ => ⟨_, scanned, searched, scans, ?_, answers, possible⟩⟩
          · intro other rival standing same
            by_cases different : other = place
            · rw [different]
            · exact Nat.le_of_lt (first other rival standing same different)
          · exact Bool.eq_iff_iff.mpr
              (answers.isOk_iff.trans possible.isOk_iff.symm)
      | true =>
          rw [answerAt_dead stands state] at searched
          constructor
          · rintro ⟨found, other, agree⟩
            have same := agree.searched
            rw [searched] at same
            cases same
            exact .inl agree.answers.2
          · rintro (dead | ⟨other, rival, standing, same, live, least⟩)
            · have answers : Answers entries docId
                  (.error (.docNotFound docId)) := ⟨rfl, dead⟩
              refine ⟨_, scanned, searched, scans, ?_, answers, possible⟩
              exact Bool.eq_iff_iff.mpr
                (answers.isOk_iff.trans possible.isOk_iff.symm)
            · have closest := least place entry stands matching
              by_cases different : other = place
              · rw [different, stands] at standing
                cases standing
                rw [state] at live
                cases live
              · have farther := first other rival standing same different
                omega

/-- On the file of any entries the two lookups of a document agree exactly if
all its entries are tombstones or the first of them that the halving reaches
is live. -/
theorem built_agree_iff (entries : List DocEntry) (builder : DocIndexBuilder)
    (added : DocIndexBuilder.new.addAll entries = some builder) :
    ∃ index, DocIndex.ofFile builder.build = .ok index ∧ ∀ docId,
      (∃ found scanned, LookupsAgree index entries docId found scanned) ↔
        (∀ entry ∈ entries, entry.docId = docId →
          entry.isTombstone = true) ∨ LiveFirst entries docId := by
  obtain ⟨index, opens, shows, flags⟩ := ofFile_built builder
  have same : builder.entries = entries := addAll_entries added
  rw [same] at shows
  exact ⟨index, opens, fun docId => agree_iff shows flags⟩

end

section

attribute [local instance] Platform.integral

/-- An update: the entry of a document that is live and a tombstone of it. -/
def updated : List DocEntry :=
  [(DocEntry.new 7 0 0 10).markTombstone, .new 7 1 0 10]

/-- A deletion: the tombstone comes after the live entry. -/
def deleted : List DocEntry :=
  [.new 7 1 0 10, (DocEntry.new 7 0 0 10).markTombstone]

theorem sortedByDocId_updated : sortedByDocId updated = updated :=
  List.mergeSort_of_pairwise (by decide)

def updatedIndex : DocIndexBuilder where
  entries := updated
  fits := by decide

def deletedIndex : DocIndexBuilder where
  entries := deleted
  fits := by decide

theorem addAll_updated :
    DocIndexBuilder.new.addAll updated = some updatedIndex :=
  rfl

/-- The live entry comes last and the bisection reaches it first. -/
theorem built_agree_updated :
    ∃ index, DocIndex.ofFile updatedIndex.build = .ok index ∧
      ∃ found scanned, LookupsAgree index updated 7 found scanned := by
  obtain ⟨index, opens, agree⟩ :=
    built_agree_iff updated updatedIndex addAll_updated
  refine ⟨index, opens, (agree 7).mpr (.inr ?_)⟩
  refine ⟨1, .new 7 1 0 10, ?_, rfl, by decide, ?_⟩
  · rw [sortedByDocId_updated]
    rfl
  · intro other rival _ _
    have proper : 0 < updated.length := by decide
    have first : level 0 updated.length 1 = 0 := level_middle proper
    rw [first]
    exact Nat.zero_le _

/-- The live entry comes first, and the bisection stops at the tombstone. -/
theorem built_disagree_deleted :
    ∃ index, DocIndex.ofFile deletedIndex.build = .ok index ∧
      index.get 7 = some (.error (.docNotFound 7)) ∧
      index.linearScan 7 = some (.ok (.new 7 1 0 10)) := by
  obtain ⟨index, opens, shows, flags⟩ := ofFile_built deletedIndex
  have same : sortedByDocId deletedIndex.entries = deleted :=
    List.mergeSort_of_pairwise (by decide)
  have searched := get_sorted 7 shows flags
  have stops : bisect (against (sortedByDocId deletedIndex.entries) 7) 0
      deletedIndex.entries.length = some 1 := by
    rw [same, bisect]
    rfl
  rw [stops, same] at searched
  rw [same] at shows
  refine ⟨index, opens, searched, ?_⟩
  unfold DocIndex.linearScan
  rw [shows.count]
  show index.scan 7 2 0 = _
  rw [DocIndex.scan, shows.each]
  rfl

end

end RedVector.Rvf2
